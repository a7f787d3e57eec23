import EntitySql.Expr.Assignment
import EntitySql.Sql.Emission

namespace EntitySql

structure Dialect where
  name : String
  spelling : Spelling
  /-- The upsert clause of an insertion into a table, given how operands are written. -/
  upsert : (Expr → Emission Unit) → Model → OnConflict → Emission Unit

namespace Dialect

open Emission

def writeColumn (m : Model) (field : String) : Emission Unit := do
  let f ← ofExcept (m.requireField field)
  Emission.name f.column

/-- An assignment of an upsert; `incoming` writes the value that a column has in the incoming row. -/
def emitUpsertItem (incoming : String → Emission Unit) (operand : Expr → Emission Unit) (m : Model) :
    Assignable → Emission Unit
  | .assign field value => do
    writeColumn m field
    text " = "
    operand value
  | .copy field => do
    let f ← ofExcept (m.requireField field)
    Emission.name f.column
    text " = "
    incoming f.column

def questionMark (_ : Nat) : String := "?"

def dollar (n : Nat) : String := "$" ++ toString n

/-- The standard language: names in double quotes, and no upsert. -/
def standard : Dialect where
  name := "standard"
  spelling := ⟨'"', questionMark⟩
  upsert _ _ _ := fail (.unsupportedOnConflict "standard SQL has no upsert syntax")

/-- MySQL: names in backquotes. The keys of the table imply the targets of an upsert. -/
def mysql : Dialect where
  name := "mysql"
  spelling := ⟨'\x60', questionMark⟩
  upsert operand m oc :=
    match oc.assigns with
    | [] =>
      fail (.unsupportedOnConflict "ON DUPLICATE KEY UPDATE requires at least one assignment")
    | assigns => do
      text " ON DUPLICATE KEY UPDATE "
      separated (emitUpsertItem incoming operand m) assigns
where
  incoming (column : String) : Emission Unit := do
    text "VALUES("
    Emission.name column
    text ")"

/-- PostgreSQL: names in double quotes and numbered placeholders. To update a row that is there, an
upsert needs the target of the conflict. -/
def postgres : Dialect where
  name := "postgres"
  spelling := ⟨'"', dollar⟩
  upsert operand m oc :=
    match oc.targets, oc.assigns with
    | [], [] => text " ON CONFLICT DO NOTHING"
    | [], _ => fail (.unsupportedOnConflict "DO UPDATE requires a conflict target")
    | targets, assigns => do
      text " ON CONFLICT ("
      separated (writeColumn m) targets
      text ")"
      match assigns with
      | [] => text " DO NOTHING"
      | assigns => do
        text " DO UPDATE SET "
        separated (emitUpsertItem incoming operand m) assigns
where
  incoming (column : String) : Emission Unit := do
    text "EXCLUDED."
    Emission.name column

end Dialect

end EntitySql
