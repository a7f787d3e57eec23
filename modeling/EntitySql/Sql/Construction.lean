import EntitySql.Sql.Builder
import EntitySql.Sql.Command

namespace EntitySql

/-- What a statement is for: a product with one of the given dialects, or one with its own. -/
inductive Product where
  | standard
  | mysql
  | postgres
  | other (d : Dialect)

def Product.dialect : Product → Dialect
  | standard => .standard
  | mysql => .mysql
  | postgres => .postgres
  | other d => d

namespace Builder

/-- The value that a column has in the incoming row, for MySQL. -/
def writeValues (column : String) : Build Unit := do
  write "VALUES("
  writeName column
  write ")"

/-- The value that a column has in the incoming row, for PostgreSQL. -/
def writeExcluded (column : String) : Build Unit := do
  write "EXCLUDED."
  writeName column

variable (schema : Schema) (access : Access)

def writeField (m : Model) (field : String) : Build Unit := do
  writeName (← ofExcept (m.requireField field)).column

def writeUpsertItem (incoming : String → Build Unit) (m : Model) : Assignable → Build Unit
  | .assign field value => do
    writeField m field
    write " = "
    writeOperand schema value
  | .copy field => do
    let f ← ofExcept (m.requireField field)
    writeName f.column
    write " = "
    incoming f.column

/-- The upsert clause of an insertion into a table. The one of another dialect is put as it comes. -/
def writeUpsert (m : Model) (oc : OnConflict) : Product → Build Unit
  | .standard => throw (.unsupportedOnConflict "standard SQL has no upsert syntax")
  | .mysql =>
    match oc.assigns with
    | [] => throw (.unsupportedOnConflict "ON DUPLICATE KEY UPDATE requires at least one assignment")
    | assigns => do
      write " ON DUPLICATE KEY UPDATE "
      separated (writeUpsertItem schema writeValues m) assigns
  | .postgres =>
    match oc.targets, oc.assigns with
    | [], [] => write " ON CONFLICT DO NOTHING"
    | [], _ => throw (.unsupportedOnConflict "DO UPDATE requires a conflict target")
    | targets, assigns => do
      write " ON CONFLICT ("
      separated (writeField m) targets
      write ")"
      match assigns with
      | [] => write " DO NOTHING"
      | assigns => do
        write " DO UPDATE SET "
        separated (writeUpsertItem schema writeExcluded m) assigns
  | .other d => ExceptT.mk (modifyGet fun b =>
      b.put schema (d.upsert (Sql.emitOperand (b.registry.view schema) b.scope) m oc))

def writeValue (m : Model) (e : Entity) (field : String) : Build Unit := do
  bindValue (← ofExcept (access.read m e field))

def writeInsertion (p : Product) (i : Insertion) : Build Unit :=
  if i.rows.isEmpty then throw .emptyInsertRow
  else do
    let m ← tableModel schema ⟨i.entity, none⟩
    let fields ← ofExcept (Compiler.insertedFields m i.fields)
    within (.table ⟨i.entity, none⟩) do
      write "INSERT INTO "
      writeName m.table
      write " ("
      separated (fun f => writeName f.column) fields
      write ") VALUES "
      separated (fun e => bracketed (separated (fun f => writeValue access m e f.name) fields)) i.rows
      match i.onConflict with
      | some oc => writeUpsert schema m oc p
      | none => pure ()

def writeAssignable (u : Updating) (m : Model) : Assignable → Build Unit
  | .assign field value => do
    writeField m field
    write " = "
    writeOperand schema value
  | .copy field =>
    match u.source with
    | none => throw (.invalidAssignment ("column " ++ field ++ " needs an entity to read its value from"))
    | some e => do
      writeField m field
      write " = "
      writeValue access m e field

def writeUpdating (u : Updating) : Build Unit :=
  if u.assigns.isEmpty then throw .emptyUpdateAssignment
  else do
    let m ← tableModel schema ⟨u.entity, none⟩
    within (.table ⟨u.entity, none⟩) do
      write "UPDATE "
      writeName m.table
      write " SET "
      separated (writeAssignable schema access u m) u.assigns
      writeConditions schema "WHERE" u.conditions

def writeDeletion (d : Deletion) : Build Unit := do
  let m ← tableModel schema ⟨d.entity, none⟩
  within (.table ⟨d.entity, none⟩) do
    write "DELETE FROM "
    writeName m.table
    writeConditions schema "WHERE" d.conditions

def writeSelection (s : Selection) : Build Unit :=
  match s.refused with
  | some message => throw (.unsupportedExpression message)
  | none => writeQuery schema s.query

/-- A command; nothing of SQL as the caller wrote it. -/
def writeCommand (p : Product) : Command → Build Unit
  | .select s => writeSelection schema s
  | .insert i => writeInsertion schema access p i
  | .update u => writeUpdating schema access u
  | .delete d => writeDeletion schema d
  | .raw _ => pure ()

end Builder

def Registry.build (r : Registry) (schema : Schema) (access : Access) (p : Product) :
    Command → Except Error Statement × Registry
  | .raw w => (.ok ⟨w.sql, w.args⟩, r)
  | cmd =>
    let (outcome, b) := (Builder.writeCommand schema access p cmd).run (.empty r p.dialect)
    (outcome.map fun _ => b.finish, b.registry)

end EntitySql
