import EntitySql.Model.Metadata
import EntitySql.Model.Tag
import EntitySql.Text.SnakeCase

namespace EntitySql

/-- A field with its column. -/
structure Field where
  name : String
  column : String
  offset : Nat
  size : Nat
  raw : RawAccess
  place : Nat
  deriving DecidableEq, Repr

structure Model where
  table : String
  entity : TypeId
  fields : List Field
  deriving DecidableEq, Repr

/-- A change to a model on registration. -/
inductive ModelOption where
  | table (name : String)
  | column (field column : String)
  deriving DecidableEq, Repr

namespace Model

/-- The field of a name; the last one declared, should several have it. -/
def field? (m : Model) (name : String) : Option Field :=
  m.fields.reverse.find? (·.name == name)

def column? (m : Model) (column : String) : Option Field :=
  m.fields.find? (·.column == column)

def requireField (m : Model) (name : String) : Except Error Field :=
  match m.field? name with
  | some f => .ok f
  | none => .error (.invalidField name)

def columnKey : String := "column"

def columnOf (info : FieldInfo) : Except Error String :=
  match info.tag with
  | none => .ok (Text.snakeCaseName info.name)
  | some tag =>
    match Tag.parse tag with
    | .error e => .error e
    | .ok pairs => .ok ((pairs.get? columnKey).getD (Text.snakeCaseName info.name))

def clash (column first second : String) : String :=
  "column " ++ column ++ " is mapped by both " ++ first ++ " and " ++ second

/-- The declared fields with their columns, after those before. A field has to lie within the struct
and to have a column of its own. -/
def mapFields (size : Nat) (before : List Field) : List FieldInfo → Except Error (List Field)
  | [] => .ok before
  | info :: rest =>
    if size < info.offset + info.size then .error .invalidModelType
    else match columnOf info with
      | .error e => .error e
      | .ok column =>
        match before.find? (·.column == column) with
        | some other => .error (.invalidTag (clash column other.name info.name))
        | none =>
          mapFields size
            (before ++ [⟨info.name, column, info.offset, info.size, info.raw, before.length⟩]) rest

def ofStruct (info : StructInfo) : Except Error Model :=
  match mapFields info.size [] info.fields with
  | .error e => .error e
  | .ok fields => .ok ⟨info.table.getD (Text.snakeCaseName info.name), info.id, fields⟩

/-- The model that metadata describes: that of a struct or of a single pointer to one. -/
def parse : TypeInfo → Except Error Model
  | .struct info => ofStruct info
  | .pointer (.struct info) => ofStruct info
  | _ => .error .invalidModelType

def setColumn (m : Model) (place : Nat) (column : String) : Model :=
  { m with fields := m.fields.map fun f => if f.place = place then { f with column } else f }

def apply (m : Model) : ModelOption → Except Error Model
  | .table name =>
    if name.isEmpty then .error (.invalidModelOption "table name must not be empty")
    else .ok { m with table := name }
  | .column field column =>
    if column.isEmpty then
      .error (.invalidModelOption ("column name for field " ++ field ++ " must not be empty"))
    else match m.field? field with
      | none => .error (.invalidField field)
      | some f =>
        match m.column? column with
        | none => .ok (m.setColumn f.place column)
        | some other =>
          if other.place = f.place then .ok (m.setColumn f.place column)
          else .error (.invalidModelOption (clash column other.name field))

/-- The model after options in order, up to the first that cannot be applied. -/
def applyAll (m : Model) : List ModelOption → Except Error Model
  | [] => .ok m
  | option :: rest =>
    match m.apply option with
    | .error e => .error e
    | .ok m => m.applyAll rest

end Model

end EntitySql
