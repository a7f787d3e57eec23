namespace EntitySql.Postgres

inductive ColumnType where
  | bool | char | int2 | int4 | int8 | oid | float4 | float8
  | text | varchar | bpchar | name | unknown | bytea
  | timestamptz | timestamp | uuid | json | jsonb
  | other (label : String)
  deriving DecidableEq, Repr

namespace ColumnType

/-- The types whose values can be read. -/
def supported : List ColumnType :=
  [bool, char, int2, int4, int8, oid, float4, float8, text, varchar, bpchar, name, unknown, bytea,
    timestamptz, timestamp, uuid, json, jsonb]

def label : ColumnType → String
  | bool => "bool"
  | char => "char"
  | int2 => "int2"
  | int4 => "int4"
  | int8 => "int8"
  | oid => "oid"
  | float4 => "float4"
  | float8 => "float8"
  | text => "text"
  | varchar => "varchar"
  | bpchar => "bpchar"
  | name => "name"
  | unknown => "unknown"
  | bytea => "bytea"
  | timestamptz => "timestamptz"
  | timestamp => "timestamp"
  | uuid => "uuid"
  | json => "json"
  | jsonb => "jsonb"
  | other label => label

def ofLabel (label : String) : ColumnType :=
  (supported.find? (·.label == label)).getD (other label)

/-- Why a column of a type cannot be read, if it cannot. -/
def reason? : ColumnType → Option String
  | other label => some ("unsupported postgres type " ++ label)
  | _ => none

end ColumnType

end EntitySql.Postgres
