import EntitySql.Number.Integer
import EntitySql.Number.Binary
import EntitySql.Json.Basic
import EntitySql.Time.Instant
import EntitySql.Uuid

namespace EntitySql

inductive Value where
  | null
  | bool (b : Bool)
  | int (n : Integer .i64)
  | uint (n : Integer .u64)
  | float (x : Double)
  | text (s : String)
  | bytes (bs : List UInt8)
  | timestamp (t : Instant)
  | uuid (u : Uuid)
  | json (j : Json)
  deriving DecidableEq, Repr

namespace Value

instance : Inhabited Value := ⟨.null⟩

def kind : Value → String
  | null => "null"
  | bool _ => "bool"
  | int _ => "int"
  | uint _ => "uint"
  | float _ => "float"
  | text _ => "text"
  | bytes _ => "bytes"
  | timestamp _ => "timestamp"
  | uuid _ => "uuid"
  | json _ => "json"

def isNull : Value → Bool
  | null => true
  | _ => false

end Value

end EntitySql
