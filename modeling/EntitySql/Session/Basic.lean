import EntitySql.Model.Registry
import EntitySql.Session.Event
import EntitySql.Session.Stats

namespace EntitySql

/-- What a run over a database changes. -/
structure Session (σ α : Type) where
  registry : Registry
  stats : Stats
  log : List (Event α)
  clock : Nat
  driver : σ

namespace Session

variable {σ α : Type}

def start (driver : σ) : Session σ α := ⟨.empty, .empty, [], 0, driver⟩

def note (s : Session σ α) (events : List (Event α)) : Session σ α := { s with log := s.log ++ events }

end Session

/-- A run without a result waits forever or has broken off. -/
def Run (σ α β : Type) : Type := Session σ α → Option (Except Error β) × Session σ α

namespace Run

variable {σ α β γ : Type}

def pure (b : β) : Run σ α β := fun s => (some (.ok b), s)

def fail (e : Error) : Run σ α β := fun s => (some (.error e), s)

def bind (r : Run σ α β) (next : β → Run σ α γ) : Run σ α γ := fun s =>
  match r s with
  | (some (.ok b), s) => next b s
  | (some (.error e), s) => (some (.error e), s)
  | (none, s) => (none, s)

instance : Monad (Run σ α) where
  pure := Run.pure
  bind := Run.bind

def ofExcept (x : Except Error β) : Run σ α β := fun s => (some x, s)

/-- Breaks off where there is no value. -/
def ofOption (x : Option β) : Run σ α β := fun s => (x.map .ok, s)

def attempt (r : Run σ α β) : Run σ α (Except Error β) := fun s =>
  match r s with
  | (some x, s) => (some (.ok x), s)
  | (none, s) => (none, s)

def note (events : List (Event α)) : Run σ α Unit := fun s => (some (.ok ()), s.note events)

def clock : Run σ α Nat := fun s => (some (.ok s.clock), s)

def observe (key : StatsKey) (elapsed : Nat) (failed : Bool) : Run σ α Unit := fun s =>
  (some (.ok ()), { s with stats := s.stats.observe key elapsed failed })

def consult (schema : Schema) (types : List TypeId) : Run σ α Unit := fun s =>
  let parsed := s.registry.parsedBy schema types
  (some (.ok ()),
    { s with
      registry := s.registry.consultAll schema types
      log := s.log ++ parsed.map fun m => .parsed m.table m.fields.length })

variable {r : Run σ α β} {s s' : Session σ α}

theorem bind_of_ok (next : β → Run σ α γ) {b : β} (h : r s = (some (.ok b), s')) : (r >>= next) s = next b s' := by
  simp only [Bind.bind, Run.bind, h]

theorem bind_of_error (next : β → Run σ α γ) {e : Error} (h : r s = (some (.error e), s')) :
    (r >>= next) s = (some (.error e), s') := by
  simp only [Bind.bind, Run.bind, h]

theorem bind_of_none (next : β → Run σ α γ) (h : r s = (none, s')) : (r >>= next) s = (none, s') := by
  simp only [Bind.bind, Run.bind, h]

theorem bind_assoc (r : Run σ α β) (next : β → Run σ α γ) {δ : Type} (last : γ → Run σ α δ) :
    (r >>= next) >>= last = r >>= fun b => next b >>= last := by
  funext s
  rcases hr : r s with ⟨_ | _ | b, s'⟩
  · rw [bind_of_none _ (bind_of_none _ hr), bind_of_none _ hr]
  · rw [bind_of_error _ (bind_of_error _ hr), bind_of_error _ hr]
  · rw [bind_of_ok _ hr]
    simp only [Bind.bind, Run.bind, hr]

theorem ofExcept_bind (x : Except Error β) (f : β → Except Error γ) :
    (ofExcept x >>= fun b => ofExcept (f b) : Run σ α γ) = ofExcept (x >>= f) := by
  cases x <;> rfl

/-- A result that is read again where it is one. -/
theorem bind_ofExcept (r : Run σ α β) (f : β → Except Error γ) (s : Session σ α) :
    (r >>= fun b => ofExcept (f b)) s = ((r s).1.map (· >>= f), (r s).2) := by
  rcases hr : r s with ⟨_ | _ | b, s'⟩
  · rw [bind_of_none _ hr]
    rfl
  · rw [bind_of_error _ hr]
    rfl
  · rw [bind_of_ok _ hr]
    rfl

theorem attempt_of_some {x : Except Error β} (h : r s = (some x, s')) : r.attempt s = (some (.ok x), s') := by
  simp only [attempt, h]

theorem attempt_of_none (h : r s = (none, s')) : r.attempt s = (none, s') := by
  simp only [attempt, h]

end Run

end EntitySql
