import EntitySql.Json.Printer
import EntitySql.Number.BigEndian
import EntitySql.Postgres.ColumnType
import EntitySql.Value.FieldType

namespace EntitySql.Postgres

/-- Why a value is no parameter of a type. -/
inductive Unencodable where
  | outOfRange
  | inexact (n : Int) (type : String)
  deriving DecidableEq, Repr

def Unencodable.message : Unencodable → String
  | outOfRange => "<out of range>"
  | inexact n type => "integer " ++ toString n ++ " has no exact " ++ type ++ " representation"

/-- The seconds from the start of 1970 to the start of 2000, from which instants are counted. -/
def epochSeconds : Int := 946684800

/-- The microseconds of an instant since the start of 2000; fractions are dropped. -/
def microseconds (t : Instant) : Int :=
  Int.tdiv ((t.seconds - epochSeconds) * 1000000000 + t.nanos) 1000

namespace Parameter

def fixed (t : IntegerType) (width : Nat) (n : Int) : Except Unencodable (List UInt8) :=
  if t.min ≤ n ∧ n ≤ t.max then .ok (BigEndian.ofInt width n) else .error .outOfRange

def ofSingle (x : Single) : List UInt8 := BigEndian.bytes 4 x.word.toNat

def ofDouble (x : Double) : List UInt8 := BigEndian.bytes 8 x.word.toNat

/-- An integer of sixty-four bits, in the form of the type. Floats hold integers exactly up to two to
the number of their significant bits. -/
def ofInt (t : ColumnType) (n : Int) : Except Unencodable (List UInt8) :=
  match t with
  | .char => fixed .i8 1 n
  | .int2 => fixed .i16 2 n
  | .int4 => fixed .i32 4 n
  | .oid => fixed .u32 4 n
  | .float4 =>
    if n.natAbs ≤ Nat.pow 2 24 then .ok (ofSingle (Single.ofInt n)) else .error (.inexact n t.label)
  | .float8 =>
    if n.natAbs ≤ Nat.pow 2 53 then .ok (ofDouble (Double.ofInt n)) else .error (.inexact n t.label)
  | _ => fixed .i64 8 n

/-- The byte before a document in the binary form of `jsonb`. -/
def jsonVersion : UInt8 := 1

def ofJson (t : ColumnType) (j : Json) : List UInt8 :=
  let text := Text.Utf8.ofString j.render
  if t = .jsonb then jsonVersion :: text else text

/-- The bytes of a value for a parameter of a type; none for null. -/
def encode (t : ColumnType) : Value → Except Unencodable (Option (List UInt8))
  | .null => .ok none
  | .bool b => .ok (some [b.toUInt8])
  | .int n => some <$> ofInt t n.val
  | .uint n =>
    if n.val ≤ IntegerType.i64.max then some <$> ofInt t n.val else .error .outOfRange
  | .float x => .ok (some (if t = .float4 then ofSingle (Single.ofDouble x) else ofDouble x))
  | .text s => .ok (some (Text.Utf8.ofString s))
  | .bytes bs => .ok (some bs)
  | .timestamp i => .ok (some (BigEndian.ofInt 8 (microseconds i)))
  | .uuid u => .ok (some u.bytes)
  | .json j => .ok (some (ofJson t j))

end Parameter

end EntitySql.Postgres
