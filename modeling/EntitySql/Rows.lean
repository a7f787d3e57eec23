import EntitySql.Value.Basic

namespace EntitySql

structure Row where
  columns : List String
  /-- Why a column could not be decoded, by position; nothing where it could. -/
  undecodable : List (Option String)
  values : List Value
  deriving DecidableEq, Repr

/-- The rows of a result. -/
structure Rows where
  columns : List String
  undecodable : List (Option String)
  values : List (List Value)
  deriving DecidableEq, Repr

/-- Why the column in a position could not be decoded. -/
def reasonAt (undecodable : List (Option String)) (i : Nat) : Option String := (undecodable[i]?).join

namespace Row

def reason? (r : Row) (i : Nat) : Option String := reasonAt r.undecodable i

def get? (r : Row) (column : String) : Option Value :=
  match r.columns.findIdx? (· == column) with
  | some i => r.values[i]?
  | none => none

/-- The columns with their values, as far as both go. -/
def pairs (r : Row) : List (String × Value) := r.columns.zip r.values

/-- A column of a row. -/
structure Entry where
  column : String
  value : Value
  reason : Option String
  deriving DecidableEq, Repr

/-- The columns with their values and why they could not be decoded. -/
def entries (r : Row) : List Entry :=
  r.pairs.zipIdx.map fun ((column, value), i) => ⟨column, value, r.reason? i⟩

end Row

namespace Rows

def empty : Rows := ⟨[], [], []⟩

instance : Inhabited Rows := ⟨empty⟩

def reason? (r : Rows) (i : Nat) : Option String := reasonAt r.undecodable i

def size (r : Rows) : Nat := r.values.length

def toList (r : Rows) : List Row := r.values.map fun values => ⟨r.columns, r.undecodable, values⟩

end Rows

end EntitySql
