import EntitySql.Error
import EntitySql.Rows
import EntitySql.Sql.Command

namespace EntitySql

/-- How a statement is run. -/
inductive Mode where
  | query
  | execute
  deriving DecidableEq, Repr

def Mode.name : Mode → String
  | query => "query"
  | execute => "execute"

/-- What a driver reports of a statement that gives no rows. -/
structure ExecResult where
  rowsAffected : Except Error (Integer .u64)
  lastInsertId : Except Error (Integer .i64)

/-- A report of plain numbers; the identifier may be missing. -/
def ExecResult.ofCounts (rowsAffected : Integer .u64) (lastInsertId : Option (Integer .i64)) : ExecResult where
  rowsAffected := .ok rowsAffected
  lastInsertId :=
    match lastInsertId with
    | some id => .ok id
    | none => .error (.driver "driver did not report a last insert id")

inductive Outcome where
  | rows (rows : Rows)
  | exec (result : ExecResult)

namespace Outcome

def intoRows : Outcome → Except Error Rows
  | rows rs => .ok rs
  | exec _ => .error (.other "interceptor returned an exec result for a query")

def intoExec : Outcome → Except Error ExecResult
  | exec r => .ok r
  | rows _ => .error (.other "interceptor returned rows for an exec statement")

end Outcome

/-- A statement on its way to the database. -/
structure Context where
  kind : StatementKind
  mode : Mode
  statement : Statement
  /-- The table of the entity type that the statement is for. -/
  table : Option String
  /-- The names of the spans that it runs in, the innermost first. -/
  spans : List String
  deriving DecidableEq, Repr

end EntitySql
