import EntitySql.Session.Basic

namespace EntitySql

/-- What comes of a call. Without a result the call waits forever. -/
structure Reply (σ α β : Type) where
  state : σ
  events : List (Event α)
  elapsed : Nat
  result : Option (Except Error β)

def Call (σ α β : Type) : Type := σ → Reply σ α β

namespace Call

variable {σ α β γ : Type}

def pure (b : β) : Call σ α β := fun s => ⟨s, [], 0, some (.ok b)⟩

def bind (c : Call σ α β) (next : β → Call σ α γ) : Call σ α γ := fun s =>
  match c s with
  | ⟨s, events, elapsed, some (.ok b)⟩ =>
    let r := next b s
    ⟨r.state, events ++ r.events, elapsed + r.elapsed, r.result⟩
  | ⟨s, events, elapsed, some (.error e)⟩ => ⟨s, events, elapsed, some (.error e)⟩
  | ⟨s, events, elapsed, none⟩ => ⟨s, events, elapsed, none⟩

instance : Monad (Call σ α) where
  pure := Call.pure
  bind := Call.bind

def ofExcept (x : Except Error β) : Call σ α β := fun s => ⟨s, [], 0, some x⟩

def fail (e : Error) : Call σ α β := ofExcept (.error e)

def wait : Call σ α β := fun s => ⟨s, [], 0, none⟩

def note (event : Event α) : Call σ α Unit := fun s => ⟨s, [event], 0, some (.ok ())⟩

def get : Call σ α σ := fun s => ⟨s, [], 0, some (.ok s)⟩

def set (s : σ) : Call σ α Unit := fun _ => ⟨s, [], 0, some (.ok ())⟩

def attempt (c : Call σ α β) : Call σ α (Except Error β) := fun s =>
  let r := c s
  ⟨r.state, r.events, r.elapsed, r.result.map .ok⟩

end Call

/-- A driver with states `σ` and open transactions `τ`. Statements go to the connection or to an open
transaction. -/
structure Driver (σ τ α : Type) where
  query : Option τ → Statement → Call σ α Rows
  execute : Option τ → Statement → Call σ α ExecResult
  begin : Call σ α τ
  commit : τ → Call σ α Unit
  rollback : τ → Call σ α Unit
  abandon : τ → σ → σ

def Run.call {σ α β : Type} (c : Call σ α β) : Run σ α β := fun s =>
  let r := c s.driver
  (r.result, { s with log := s.log ++ r.events, clock := s.clock + r.elapsed, driver := r.state })

/-- What is made of a result after a call may as well be made of it within the call. -/
theorem Run.call_bind_pure {σ α β γ : Type} (c : Call σ α β) (f : β → γ) :
    (Run.call c >>= fun b => Pure.pure (f b)) = Run.call (c >>= fun b => Pure.pure (f b)) := by
  funext s
  rcases hreply : c s.driver with ⟨state, events, elapsed, _ | _ | b⟩
  · simp [Bind.bind, Run.bind, Call.bind, Run.call, hreply]
  · simp [Bind.bind, Run.bind, Call.bind, Run.call, hreply]
  · simp [Bind.bind, Run.bind, Call.bind, Run.call, Pure.pure, Run.pure, Call.pure, hreply]

end EntitySql
