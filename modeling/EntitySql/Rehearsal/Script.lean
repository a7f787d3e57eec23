import EntitySql.Rehearsal.Observation

namespace EntitySql.Rehearsal

/-- A step that may stand in the body of a transaction. Statements run in the transaction that they
name. -/
inductive Step (σ : Type) where
  | findOne (tx : Option String) (blank : Entity) (cmd : Command)
  | findMany (tx : Option String) (blank : Entity) (cmd : Command)
  | exec (tx : Option String) (cmd : Command)
  | build (cmd : Command)
  | register (t : TypeId) (options : List ModelOption)
  | stats
  | statsOf (key : StatsKey)
  | resetStats
  | fail (message : String)
  | arrange (change : σ → σ)

/-- A step in the body of a transaction. -/
structure BodyStep (σ : Type) where
  step : Step σ
  /-- Whether the body goes on after a failure of the step. -/
  ignored : Bool

/-- A step of a script. -/
inductive Stage (σ : Type) where
  | plain (step : Step σ)
  | begin (name : String)
  | commit (name : String)
  | rollback (name : String)
  | abandon (name : String)
  /-- A body in a transaction; a quiet one leaves a failed rollback to the caller. -/
  | transaction (quiet : Bool) (body : List (BodyStep σ))

/-- What came of a step of a script. -/
inductive Entry where
  | answer (result : Except Error Answer)
  /-- The answers of the steps of a body, and their number. -/
  | body (answers : List (Except Error Answer)) (result : Except Error Nat)
  | blocked

variable {σ τ : Type}

abbrev Open (τ : Type) := List (String × τ)

/-- The transaction that a statement is for: the one it names, or the one around it. -/
def chosen (transactions : Open τ) (around : Option τ) : Option String → Except Error (Option τ)
  | none => .ok around
  | some name =>
    match transactions.lookup name with
    | some tx => .ok (some tx)
    | none => .error (.other ("no open transaction " ++ name))

variable (db : Database σ τ Observation)

def take (transactions : Open τ) (around : Option τ) : Step σ → Run σ Observation Answer
  | .findOne tx blank cmd => do
    let tx ← Run.ofExcept (chosen transactions around tx)
    let e ← db.findOne tx blank cmd
    pure (.entity e)
  | .findMany tx blank cmd => do
    let tx ← Run.ofExcept (chosen transactions around tx)
    let es ← db.findMany tx blank cmd
    pure (.entities es)
  | .exec tx cmd => do
    let tx ← Run.ofExcept (chosen transactions around tx)
    let r ← db.exec tx cmd
    pure (.report r)
  | .build cmd => do
    let st ← db.build cmd
    pure (.statement st)
  | .register t options => do
    let m ← db.register t options
    pure (.model m)
  | .stats => fun s => (some (.ok (.stats s.stats)), s)
  | .statsOf key => fun s => (some (.ok (.counters (s.stats.get? key))), s)
  | .resetStats => fun s => (some (.ok .nothing), { s with stats := .empty })
  | .fail message => Run.fail (.other message)
  | .arrange change => fun s => (some (.ok .nothing), { s with driver := change s.driver })

/-- The steps of a body in a transaction, up to the first failure that is not ignored. -/
def takeBody (transactions : Open τ) (tx : τ) : List (BodyStep σ) → Run σ Observation Unit
  | [] => pure ()
  | b :: rest => do
    let result ← (take db transactions (some tx) b.step).attempt
    Run.note [.own (.answered result)]
    match result with
    | .ok _ => takeBody transactions tx rest
    | .error e => if b.ignored then takeBody transactions tx rest else Run.fail e

def takeTransaction (transactions : Open τ) (quiet : Bool) (body : List (BodyStep σ)) :
    Run σ Observation Nat :=
  let run := fun tx => do
    takeBody db transactions tx body
    pure body.length
  if quiet then db.inQuietTransaction run else db.inTransaction run

/-- The answer of a step of a body, if an event is one. -/
def answerIn? : Event Observation → Option (Except Error Answer)
  | .own (.answered a) => some a
  | _ => none

/-- The state of a script: the session and the open transactions. -/
structure Progress (σ τ : Type) where
  session : Session σ Observation
  transactions : Open τ

namespace Progress

def without (p : Progress σ τ) (name : String) : Open τ := p.transactions.filter (·.1 != name)

def answered (transactions : Open τ) (result : Option (Except Error Answer) × Session σ Observation) :
    Entry × Progress σ τ :=
  match result with
  | (some result, session) => (.answer result, ⟨session, transactions⟩)
  | (none, session) => (.blocked, ⟨session, transactions⟩)

def close (p : Progress σ τ) (name : String) (finish : τ → Run σ Observation Unit) :
    Entry × Progress σ τ :=
  match p.transactions.lookup name with
  | none => (.answer (.error (.other ("no open transaction " ++ name))), p)
  | some tx =>
    let run : Run σ Observation Answer := do
      finish tx
      pure .done
    answered (p.without name) (run p.session)

def advance (p : Progress σ τ) : Stage σ → Entry × Progress σ τ
  | .plain step => answered p.transactions (take db p.transactions none step p.session)
  | .begin name =>
    match db.begin p.session with
    | (none, session) => (.blocked, { p with session })
    | (some (.error e), session) => (.answer (.error e), { p with session })
    | (some (.ok tx), session) => (.answer (.ok .done), ⟨session, (name, tx) :: p.without name⟩)
  | .commit name => p.close name db.commit
  | .rollback name => p.close name db.rollback
  | .abandon name => p.close name db.abandon
  | .transaction quiet body =>
    let (result, session) := takeTransaction db p.transactions quiet body { p.session with log := [] }
    let seen := session.log.filter fun e => (answerIn? e).isNone
    let entry :=
      match result with
      | none => .blocked
      | some result => .body (session.log.filterMap answerIn?) result
    (entry, { p with session := { session with log := p.session.log ++ seen } })

/-- The entries of a script, each with what was noted since the one before. -/
def entries (p : Progress σ τ) : List (Stage σ) → List (Entry × List (Event Observation))
  | [] => []
  | stage :: rest =>
    let (entry, p) := p.advance db stage
    (entry, p.session.log) :: entries { p with session := { p.session with log := [] } } rest

end Progress

/-- What is noted when a database is opened, and what comes of the steps of a script. -/
def perform (driver : σ) (script : List (Stage σ)) :
    List (Event Observation) × List (Entry × List (Event Observation)) :=
  let session : Session σ Observation := db.start driver
  (session.log, Progress.entries db ⟨{ session with log := [] }, []⟩ script)

end EntitySql.Rehearsal
