import EntitySql.Error
import EntitySql.Postgres.Parameter
import EntitySql.Rows

namespace EntitySql.Postgres

abbrev RawCell := Option (List UInt8)

/-- A column of a result. -/
structure ResultColumn where
  name : String
  type : ColumnType
  deriving DecidableEq, Repr

namespace RawCell

def int? (width : Nat) (bs : List UInt8) : Option Value :=
  BigEndian.signed? width bs >>= fun n => (Integer.ofInt? .i64 n).map .int

/-- An instant, in microseconds since the start of 2000. -/
def timestamp? (bs : List UInt8) : Option Value :=
  BigEndian.signed? 8 bs >>= fun n =>
    (Instant.ofParts? (epochSeconds + n / 1000000) (n % 1000000 * 1000).toNat).map .timestamp

def text? (bs : List UInt8) : Option String :=
  (Text.Utf8.toString? bs).toOption

def json? (bs : List UInt8) : Option Value :=
  (text? bs >>= Json.parse?).map .json

def decodeBytes (t : ColumnType) (bs : List UInt8) : Option Value :=
  match t with
  | .bool =>
    match bs with
    | [b] => some (.bool (b != 0))
    | _ => none
  | .char => int? 1 bs
  | .int2 => int? 2 bs
  | .int4 => int? 4 bs
  | .int8 => int? 8 bs
  | .oid => BigEndian.unsigned? 4 bs >>= fun n => (Integer.ofInt? .u64 n).map .uint
  | .float4 => (BigEndian.unsigned? 4 bs).map fun w => .float (Single.ofNat w).toDouble
  | .float8 => (BigEndian.unsigned? 8 bs).map fun w => .float (Double.ofNat w)
  | .text | .varchar | .bpchar | .name | .unknown => (text? bs).map .text
  | .bytea => some (.bytes bs)
  | .timestamptz | .timestamp => timestamp? bs
  | .uuid => (Uuid.ofBytes? bs).map .uuid
  | .json => json? bs
  | .jsonb =>
    match bs with
    | [] => none
    | b :: rest => if b = Parameter.jsonVersion then json? rest else none
  | .other _ => some .null

def decode (t : ColumnType) : RawCell → Option Value
  | none => some .null
  | some bs => decodeBytes t bs

end RawCell

/-- The values of a row from the column in position `i` on, up to the first cell that cannot be read. -/
def rowFrom (i : Nat) : List ResultColumn → List RawCell → Except Error (List Value)
  | column :: columns, cell :: cells =>
    match RawCell.decode column.type cell with
    | none => .error (.decode column.name ("error deserializing column " ++ toString i))
    | some v => (v :: ·) <$> rowFrom (i + 1) columns cells
  | _, _ => .ok []

/-- The rows of a result. Without a row nothing is known of the columns. -/
def rowsOf (columns : List ResultColumn) (cells : List (List RawCell)) : Except Error Rows :=
  match cells with
  | [] => .ok .empty
  | cells =>
    match cells.mapM (rowFrom 0 columns) with
    | .ok values => .ok ⟨columns.map (·.name), columns.map (·.type.reason?), values⟩
    | .error e => .error e

end EntitySql.Postgres
