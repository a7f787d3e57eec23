import EntitySql.Entity.Basic
import EntitySql.Model.Basic
import EntitySql.Rows

namespace EntitySql

def Model.check (m : Model) (t : TypeId) : Except Error Unit :=
  if m.entity = t then .ok () else .error .invalidModelType

/-- How the fields of an entity are reached: through the accessors by name, or through the raw accessors
at the offsets that the model notes. -/
inductive Access where
  | byOffset
  | byName
  deriving DecidableEq, Repr

namespace Access

def read? (a : Access) (e : Entity) (f : Field) : Option Value :=
  match a with
  | byOffset => f.raw.read? e f.offset
  | byName => e.readNamed? f.name

/-- The entity after a value is written to a field, if the field is reached. -/
def write? (a : Access) (e : Entity) (f : Field) (v : Value) : Option (Except Misfit Entity) :=
  match a with
  | byOffset => f.raw.write? e f.offset v
  | byName => e.writeNamed? f.name v

def missed (a : Access) (f : Field) : Error :=
  match a with
  | byOffset => .stray
  | byName => .invalidField f.name

def read (a : Access) (m : Model) (e : Entity) (field : String) : Except Error Value :=
  match m.check e.type with
  | .error err => .error err
  | .ok () =>
    match m.requireField field with
    | .error err => .error err
    | .ok f =>
      match a.read? e f with
      | some v => .ok v
      | none => .error (a.missed f)

/-- The entity after a value is written to the field of a column. -/
def writeColumn (a : Access) (m : Model) (e : Entity) (column : String) (v : Value) :
    Except Error Entity :=
  match m.check e.type with
  | .error err => .error err
  | .ok () =>
    match m.column? column with
    | none => .ok e
    | some f =>
      match a.write? e f v with
      | some (.ok e) => .ok e
      | some (.error misfit) => .error (.ofMisfit column misfit)
      | none => .error (a.missed f)

/-- The entity after the columns of a row are written to it, up to the first failure. A column that
could not be decoded is a failure only if it has a field. -/
def writeEntries (a : Access) (m : Model) (e : Entity) : List Row.Entry → Entity × Except Error Unit
  | [] => (e, .ok ())
  | ⟨column, _, some reason⟩ :: rest =>
    match m.column? column with
    | some _ => (e, .error (.decode column reason))
    | none => a.writeEntries m e rest
  | ⟨column, v, none⟩ :: rest =>
    match a.writeColumn m e column v with
    | .error err => (e, .error err)
    | .ok e => a.writeEntries m e rest

def writeRow (a : Access) (m : Model) (e : Entity) (r : Row) : Entity × Except Error Unit :=
  a.writeEntries m e r.entries

def decodeRow (a : Access) (m : Model) (blank : Entity) (r : Row) : Except Error Entity :=
  match a.writeRow m blank r with
  | (e, .ok ()) => .ok e
  | (_, .error err) => .error err

/-- The entities that rows are read as, up to the first failure. -/
def decodeRows (a : Access) (m : Model) (blank : Entity) (rows : Rows) : Except Error (List Entity) :=
  rows.toList.mapM (a.decodeRow m blank)

end Access

end EntitySql
