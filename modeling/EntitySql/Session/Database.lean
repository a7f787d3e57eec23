import EntitySql.Session.Interceptor

namespace EntitySql

structure Database (σ τ α : Type) where
  schema : Schema
  dialect : Dialect
  access : Access
  chain : List (Interceptor σ α)
  driver : Driver σ τ α

namespace Database

variable {σ τ α β : Type} (db : Database σ τ α)

def start (driver : σ) : Session σ α :=
  (Session.start driver).note [.opened db.dialect.name db.chain.length]

def model (t : TypeId) : Run σ α Model := fun s =>
  (do Run.consult db.schema [t]; Run.ofExcept (s.registry.view db.schema t)) s

def register (t : TypeId) (options : List ModelOption) : Run σ α Model := fun s =>
  let parsed :=
    match db.schema.parse t with
    | .ok m => [.parsed m.table m.fields.length]
    | .error _ => []
  (some (Registry.registered db.schema t options),
    { s with
      registry := s.registry.register db.schema t options
      log := s.log ++ parsed })

def build (cmd : Command) : Run σ α Statement := fun s =>
  let c : Compiler := ⟨db.dialect, db.access, s.registry.view db.schema⟩
  (do Run.consult db.schema (c.emit cmd).consulted; Run.ofExcept (c.build cmd)) s

/-- What comes of a statement that is sent through the interceptors. -/
def dispatch (tx : Option τ) (ctx : Context) : Run σ α Outcome :=
  (Handler.ofDriver db.driver tx).through db.chain ctx

/-- The table of the entity type that a command is about. -/
def tableOf (cmd : Command) : Run σ α (Option String) :=
  match cmd.entity? with
  | none => pure none
  | some t => do
    let m ← db.model t
    pure (some m.table)

def exec (tx : Option τ) (cmd : Command) : Run σ α ExecResult := do
  let statement ← db.build cmd
  let table ← db.tableOf cmd
  let outcome ← db.dispatch tx ⟨cmd.kind, .execute, statement, table, []⟩
  Run.ofExcept outcome.intoExec

/-- The rows of a command, and the model of the type that they are to be read as. -/
def fetch (tx : Option τ) (t : TypeId) (cmd : Command) : Run σ α (Model × Rows) := do
  let statement ← db.build cmd
  let m ← db.model t
  let outcome ← db.dispatch tx ⟨cmd.kind, .query, statement, some m.table, []⟩
  let rows ← Run.ofExcept outcome.intoRows
  pure (m, rows)

/-- All rows of a command as entities, each written over a blank one. -/
def findMany (tx : Option τ) (blank : Entity) (cmd : Command) : Run σ α (List Entity) := do
  let (m, rows) ← db.fetch tx blank.type cmd
  Run.ofExcept (db.access.decodeRows m blank rows)

def findOne (tx : Option τ) (blank : Entity) (cmd : Command) : Run σ α Entity := do
  let (m, rows) ← db.fetch tx blank.type cmd
  match rows.toList with
  | [] => Run.fail .noEligibleRow
  | row :: _ => Run.ofExcept (db.access.decodeRow m blank row)

def begin : Run σ α τ := Run.call db.driver.begin

def commit (tx : τ) : Run σ α Unit := Run.call (db.driver.commit tx)

def rollback (tx : τ) : Run σ α Unit := Run.call (db.driver.rollback tx)

/-- A transaction is given up with neither commit nor rollback. -/
def abandon (tx : τ) : Run σ α Unit := fun s =>
  (some (.ok ()), { s with driver := db.driver.abandon tx s.driver })

/-- Runs a body in a transaction, which is committed after it, or rolled back if it fails. Should the
rollback fail too, this is noted and both errors are returned. -/
def inTransaction (body : τ → Run σ α β) : Run σ α β := do
  let tx ← db.begin
  let result ← (body tx).attempt
  match result with
  | .ok b => do
    db.commit tx
    pure b
  | .error e => do
    let undone ← (db.rollback tx).attempt
    match undone with
    | .ok () => Run.fail e
    | .error failure => do
      Run.note [.rollbackFailed e failure]
      Run.fail (.rollback e failure)

/-- Runs a block in a transaction that is begun in the midst of another run. The block comes to a value or an
error, also both errors of a failed rollback, with which the other run goes on. A failed begin or commit ends
the other run. -/
def transactionBlock (block : τ → Run σ α β) : Run σ α (Except Error β) := do
  let tx ← db.begin
  let result ← (block tx).attempt
  match result with
  | .ok b => do
    db.commit tx
    pure (.ok b)
  | .error e => do
    let undone ← (db.rollback tx).attempt
    match undone with
    | .ok () => pure (.error e)
    | .error failure => pure (.error (.rollback e failure))

def inQuietTransaction (block : τ → Run σ α β) : Run σ α β := do
  let result ← db.transactionBlock block
  Run.ofExcept result

end Database

end EntitySql
