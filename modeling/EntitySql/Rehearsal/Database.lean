import EntitySql.Rehearsal.Observation

namespace EntitySql.Rehearsal

structure ScriptedDatabase where
  /-- The results of the next queries; without any a result is empty. -/
  results : List Rows
  failing : List String
  affected : Option (Integer .u64)
  lastId : Option (Integer .i64)
  deriving Repr

namespace ScriptedDatabase

/-- A database that reports one affected row, no identifier and no failure. -/
def fresh : ScriptedDatabase := ⟨[], [], some ⟨1, by decide, by decide⟩, none⟩

def execResult (db : ScriptedDatabase) : ExecResult :=
  match db.affected with
  | some n => .ofCounts n db.lastId
  | none =>
    ⟨.error (.driver "rows affected unknown"),
      match db.lastId with
      | some id => .ok id
      | none => .error (.driver "last id unknown")⟩

def call (c : DatabaseCall) : Call ScriptedDatabase Observation Unit := do
  Call.note (.own (.called c))
  let db ← Call.get
  if db.failing.contains c.name then Call.fail (.driver (c.name ++ " failed"))

/-- The database as a driver, whose transactions are not told apart. -/
def driver : Driver ScriptedDatabase Unit Observation where
  query _ st := do
    call (.query st)
    let db ← Call.get
    match db.results with
    | [] => pure .empty
    | rows :: rest => do
      Call.set { db with results := rest }
      pure rows
  execute _ st := do
    call (.execute st)
    let db ← Call.get
    pure db.execResult
  begin := call .begin
  commit _ := call .commit
  rollback _ := call .rollback
  abandon _ db := db

end ScriptedDatabase

end EntitySql.Rehearsal
