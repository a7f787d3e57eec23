import EntitySql.Value.FieldType

namespace EntitySql

/-- The identity of a type. -/
inductive TypeId where
  | named (name : String)
  | boxed (inside : TypeId)
  deriving DecidableEq, Repr

/-- Accessors through an address, made for the contents of one type. -/
structure RawAccess where
  type : FieldType
  deriving DecidableEq, Repr

/-- A field as it is declared: its name, its tag, the bytes that it takes up, and the accessors made for it. -/
structure FieldInfo where
  name : String
  tag : Option String
  offset : Nat
  size : Nat
  raw : RawAccess
  deriving DecidableEq, Repr

/-- A struct as it is declared. -/
structure StructInfo where
  name : String
  id : TypeId
  size : Nat
  table : Option String
  fields : List FieldInfo
  deriving DecidableEq, Repr

inductive TypeInfo where
  | struct (info : StructInfo)
  | pointer (target : TypeInfo)
  | other
  deriving DecidableEq, Repr

abbrev Schema := String → TypeInfo

def Schema.report (schema : Schema) : TypeId → TypeInfo
  | .named name => schema name
  | .boxed inside => .pointer (schema.report inside)

end EntitySql
