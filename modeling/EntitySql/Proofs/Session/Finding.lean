import EntitySql.Proofs.Entity.Decoding
import EntitySql.Proofs.Session.Transparency

namespace EntitySql

variable {σ τ α : Type}

/-- What a command that selects entities of a type is sent as, and the model that its rows are read by. -/
def Compiler.selection (c : Compiler) (cmd : Command) (t : TypeId) : Except Error (Context × Model) := do
  let statement ← c.build cmd
  let m ← c.lookup t
  pure (⟨cmd.kind, .query, statement, some m.table, []⟩, m)

namespace Database

variable (db : Database σ τ α)

/-- The rows of a selection are those of its outcome, once it was sent. -/
theorem fetch_eq (tx : Option τ) (t : TypeId) (cmd : Command) (s : Session σ α) :
    ∃ s', db.Consulted s s' ∧ db.fetch tx t cmd s =
      match (db.compiler s).selection cmd t with
      | .error e => (some (.error e), s')
      | .ok (ctx, m) =>
        let sent := db.dispatch tx ctx s'
        (sent.1.map (· >>= fun outcome => (m, ·) <$> outcome.intoRows), sent.2) := by
  obtain ⟨s₁, hbuild, hs₁⟩ := db.build_eq cmd s
  obtain ⟨s₂, hmodel, hs₂⟩ := db.model_eq t s₁
  rw [hs₁.compiler] at hmodel
  unfold fetch Compiler.selection
  cases hstatement : (db.compiler s).build cmd with
  | error e =>
    rw [hstatement] at hbuild
    exact ⟨s₁, hs₁, Run.bind_of_error _ hbuild⟩
  | ok statement =>
    rw [hstatement] at hbuild
    refine ⟨s₂, hs₁.trans db hs₂, (Run.bind_of_ok _ hbuild).trans ?_⟩
    cases hm : (db.compiler s).lookup t with
    | error e =>
      rw [hm] at hmodel
      exact Run.bind_of_error _ hmodel
    | ok m =>
      rw [hm] at hmodel
      have hlast : (fun outcome : Outcome => (do
          let rows ← Run.ofExcept outcome.intoRows
          pure (m, rows) : Run σ α (Model × Rows))) =
          fun outcome => Run.ofExcept ((m, ·) <$> outcome.intoRows) := by
        funext outcome
        cases outcome <;> rfl
      rw [Run.bind_of_ok _ hmodel, hlast, Run.bind_ofExcept]
      rfl

private theorem findMany_eq (tx : Option τ) (blank : Entity) (cmd : Command) (s : Session σ α) :
    db.findMany tx blank cmd s =
      let fetched := db.fetch tx blank.type cmd s
      (fetched.1.map (· >>= fun (m, rows) => db.access.decodeRows m blank rows), fetched.2) :=
  Run.bind_ofExcept _ _ s

private theorem findOne_eq (tx : Option τ) (blank : Entity) (cmd : Command) (s : Session σ α) :
    db.findOne tx blank cmd s =
      let fetched := db.fetch tx blank.type cmd s
      (fetched.1.map (· >>= fun (m, rows) => db.access.decodeFirst m blank rows), fetched.2) := by
  have hread : db.findOne tx blank cmd = db.fetch tx blank.type cmd >>= fun (m, rows) =>
      Run.ofExcept (db.access.decodeFirst m blank rows) := by
    refine congrArg (db.fetch tx blank.type cmd >>= ·) (funext fun (m, rows) => ?_)
    dsimp only [Access.decodeFirst]
    cases rows.toList <;> rfl
  rw [hread]
  exact Run.bind_ofExcept _ _ s

/-- All entities of a selection, and the first. Nothing is sent unless there are a statement and a model. Else
the same context is sent from the same session, whatever the interceptors and the driver are, and the session
is the same after it. What was sent without success, or came back as a report, is the same error either way;
and of the rows that come back, all are read or only the first. -/
theorem findOne_head (tx : Option τ) (blank : Entity) (cmd : Command) (s : Session σ α) :
    let many := db.findMany tx blank cmd s
    let one := db.findOne tx blank cmd s
    ∃ s', db.Consulted s s' ∧
      match (db.compiler s).selection cmd blank.type with
      | .error e => many = (some (.error e), s') ∧ one = (some (.error e), s')
      | .ok (ctx, m) =>
        let sent := db.dispatch tx ctx s'
        many.2 = sent.2 ∧ one.2 = sent.2 ∧
          match sent.1 with
          | none => many.1 = none ∧ one.1 = none
          | some (.error e) => many.1 = some (.error e) ∧ one.1 = some (.error e)
          | some (.ok outcome) =>
            match outcome.intoRows with
            | .error e => many.1 = some (.error e) ∧ one.1 = some (.error e)
            | .ok rows => ∃ all first, many.1 = some all ∧ one.1 = some first ∧
              db.access.Readings m blank rows.toList all first := by
  obtain ⟨s', hs', hfetch⟩ := db.fetch_eq tx blank.type cmd s
  refine ⟨s', hs', ?_⟩
  rw [db.findMany_eq, db.findOne_eq, hfetch]
  cases (db.compiler s).selection cmd blank.type with
  | error e => exact ⟨rfl, rfl⟩
  | ok selected =>
    obtain ⟨ctx, m⟩ := selected
    refine ⟨rfl, rfl, ?_⟩
    dsimp only
    rcases (db.dispatch tx ctx s').1 with _ | e | outcome
    · exact ⟨rfl, rfl⟩
    · exact ⟨rfl, rfl⟩
    · cases outcome with
      | exec result => exact ⟨rfl, rfl⟩
      | rows rows => exact ⟨_, _, rfl, rfl, db.access.readings m blank rows⟩

end Database

end EntitySql
