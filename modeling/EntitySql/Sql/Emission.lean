import EntitySql.Expr.Basic
import EntitySql.Model.Basic
import EntitySql.Sql.Piece

namespace EntitySql

/-- What a walk over a statement leaves behind, also when it fails half-way: the pieces written and the
types whose models it asked for, both in order. What is already written never changes what follows. -/
structure Emission (α : Type) where
  pieces : List Piece
  consulted : List TypeId
  outcome : Except Error α

namespace Emission

variable {α β : Type}

/-- One walk after another. A failure ends both and keeps what was left behind. -/
def andThen (e : Emission α) (f : α → Emission β) : Emission β :=
  match e.outcome with
  | .error err => ⟨e.pieces, e.consulted, .error err⟩
  | .ok a =>
    let r := f a
    ⟨e.pieces ++ r.pieces, e.consulted ++ r.consulted, r.outcome⟩

instance : Monad Emission where
  pure a := ⟨[], [], .ok a⟩
  bind := andThen

def write (p : Piece) : Emission Unit := ⟨[p], [], .ok ()⟩

def text (s : String) : Emission Unit := write (.text s)

def name (s : String) : Emission Unit := write (.name s)

def bound (v : Value) : Emission Unit := write (.bound v)

def raw (r : RawSql) : Emission Unit := write (.raw r.sql r.args)

def fail (e : Error) : Emission α := ⟨[], [], .error e⟩

def ofExcept (r : Except Error α) : Emission α := ⟨[], [], r⟩

def model (lookup : TypeId → Except Error Model) (t : TypeId) : Emission Model := ⟨[], [t], lookup t⟩

/-- A second walk in place of a first that met an unknown field. -/
def orElseField (e : Emission α) (f : Unit → Emission α) : Emission α :=
  match e.outcome with
  | .error (.invalidField _) =>
    let r := f ()
    ⟨e.pieces ++ r.pieces, e.consulted ++ r.consulted, r.outcome⟩
  | _ => e

def separated (each : α → Emission Unit) : List α → Emission Unit
  | [] => pure ()
  | [a] => each a
  | a :: next :: rest => do
    each a
    text ", "
    separated each (next :: rest)

def bracketed (e : Emission Unit) : Emission Unit := do
  text "("
  e
  text ")"

theorem bind_def (e : Emission α) (f : α → Emission β) : e >>= f = e.andThen f := rfl

theorem andThen_ok {e : Emission α} {f : α → Emission β} {a : α} (h : e.outcome = .ok a) :
    e.andThen f = ⟨e.pieces ++ (f a).pieces, e.consulted ++ (f a).consulted, (f a).outcome⟩ := by
  simp [andThen, h]

theorem andThen_error {e : Emission α} {f : α → Emission β} {err : Error} (h : e.outcome = .error err) :
    e.andThen f = ⟨e.pieces, e.consulted, .error err⟩ := by
  simp [andThen, h]

theorem andThen_assoc {γ : Type} (e : Emission α) (f : α → Emission β) (g : β → Emission γ) :
    (e.andThen f).andThen g = e.andThen fun a => (f a).andThen g := by
  cases he : e.outcome with
  | error err => simp [andThen, he]
  | ok a => cases hf : (f a).outcome <;> simp [andThen, he, hf]

instance : LawfulMonad Emission := LawfulMonad.mk' Emission
  (by intro α ⟨pieces, consulted, outcome⟩; cases outcome <;> simp [Functor.map, andThen])
  (fun a f => by simp [bind_def, andThen, pure])
  (fun e f g => andThen_assoc e f g)

end Emission

end EntitySql
