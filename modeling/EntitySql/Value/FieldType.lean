import EntitySql.Value.Basic
import EntitySql.Json.Reader
import EntitySql.Text.Utf8
import EntitySql.Time.Rfc3339

namespace EntitySql

inductive FieldType where
  | integer (t : IntegerType)
  | single
  | double
  | bool
  | text
  | bytes
  | timestamp
  | uuid
  | json
  | optional (t : FieldType)
  | value
  deriving DecidableEq, Repr

/-- Why a value is no content of a field type. -/
inductive Misfit where
  | wrongKind (expected got : String)
  | outOfRange (n : Int) (type : String)
  | notUtf8 (fault : Text.Utf8.Fault)
  /-- A text that is not in the form of the type. -/
  | unparsable
  deriving DecidableEq, Repr

def Misfit.message : Misfit → String
  | wrongKind expected got => "expected " ++ expected ++ ", got " ++ got
  | outOfRange n type => toString n ++ " out of range for " ++ type
  | notUtf8 fault => fault.message
  | unparsable => "<unparsable>"

namespace FieldType

def name : FieldType → String
  | integer t => t.name
  | single => "f32"
  | double => "f64"
  | bool => "bool"
  | text => "text"
  | bytes => "bytes"
  | timestamp => "timestamp"
  | uuid => "uuid"
  | json => "json"
  | optional t => t.name
  | value => "value"

def Content : FieldType → Type
  | integer t => Integer t
  | single => Single
  | double => Double
  | bool => Bool
  | text => String
  | bytes => List UInt8
  | timestamp => Instant
  | uuid => Uuid
  | json => Json
  | optional t => Option t.Content
  | value => Value

/-- What a field holds before anything is written to it. -/
def blank : (t : FieldType) → t.Content
  | integer t => Integer.zero t
  | single => Single.zero
  | double => Double.zero
  | bool => false
  | text => ""
  | bytes => []
  | timestamp => Instant.epoch
  | uuid => Uuid.nil
  | json => Json.null
  | optional _ => none
  | value => Value.null

/-- An integer content as a value: signed types give signed values. -/
def integerValue : (t : IntegerType) → Integer t → Value
  | .i8, n => .int ⟨n.val, Int.le_trans (by decide) n.min_le, Int.le_trans n.le_max (by decide)⟩
  | .i16, n => .int ⟨n.val, Int.le_trans (by decide) n.min_le, Int.le_trans n.le_max (by decide)⟩
  | .i32, n => .int ⟨n.val, Int.le_trans (by decide) n.min_le, Int.le_trans n.le_max (by decide)⟩
  | .i64, n => .int n
  | .u8, n => .uint ⟨n.val, n.min_le, Int.le_trans n.le_max (by decide)⟩
  | .u16, n => .uint ⟨n.val, n.min_le, Int.le_trans n.le_max (by decide)⟩
  | .u32, n => .uint ⟨n.val, n.min_le, Int.le_trans n.le_max (by decide)⟩
  | .u64, n => .uint n

def toValue : (t : FieldType) → t.Content → Value
  | integer t, n => integerValue t n
  | single, x => .float (Single.toDouble x)
  | double, x => .float x
  | bool, b => .bool b
  | text, s => .text s
  | bytes, bs => .bytes bs
  | timestamp, t => .timestamp t
  | uuid, u => .uuid u
  | json, j => .json j
  | optional _, none => .null
  | optional t, some x => t.toValue x
  | value, v => v

def integerOf (t : IntegerType) (n : Int) : Except Misfit (Integer t) :=
  match Integer.ofInt? t n with
  | some n => .ok n
  | none => .error (.outOfRange n t.name)

def parsed {α : Type} : Option α → Except Misfit α
  | some a => .ok a
  | none => .error .unparsable

def ofValue : (t : FieldType) → Value → Except Misfit t.Content
  | integer t, .int n => integerOf t n.val
  | integer t, .uint n => integerOf t n.val
  | integer t, v => .error (.wrongKind t.name v.kind)
  | single, .float x => .ok (Single.ofDouble x)
  | single, .int n => .ok (Single.ofInt n.val)
  | single, v => .error (.wrongKind "f32" v.kind)
  | double, .float x => .ok x
  | double, .int n => .ok (Double.ofInt n.val)
  | double, v => .error (.wrongKind "f64" v.kind)
  | bool, .bool b => .ok b
  | bool, .int n => .ok (decide (n.val ≠ 0))
  | bool, .uint n => .ok (decide (n.val ≠ 0))
  | bool, v => .error (.wrongKind "bool" v.kind)
  | text, .text s => .ok s
  | text, .bytes bs =>
    match Text.Utf8.toString? bs with
    | .ok s => .ok s
    | .error fault => .error (.notUtf8 fault)
  | text, v => .error (.wrongKind "text" v.kind)
  | bytes, .bytes bs => .ok bs
  | bytes, .text s => .ok (Text.Utf8.ofString s)
  | bytes, v => .error (.wrongKind "bytes" v.kind)
  | timestamp, .timestamp t => .ok t
  | timestamp, .text s => parsed (Rfc3339.parse? s)
  | timestamp, v => .error (.wrongKind "timestamp" v.kind)
  | uuid, .uuid u => .ok u
  | uuid, .text s => parsed (Uuid.parse? s)
  | uuid, v => .error (.wrongKind "uuid" v.kind)
  | json, .json j => .ok j
  | json, .text s => parsed (Json.parse? s)
  | json, .null => .ok Json.null
  | json, v => .error (.wrongKind "json" v.kind)
  | optional _, .null => .ok none
  | optional t, v =>
    match t.ofValue v with
    | .ok x => .ok (some x)
    | .error m => .error m
  | value, v => .ok v

end FieldType

end EntitySql
