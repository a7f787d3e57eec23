namespace EntitySql

inductive IntegerType where
  | i8 | i16 | i32 | i64 | u8 | u16 | u32 | u64
  deriving DecidableEq, Repr

namespace IntegerType

def name : IntegerType → String
  | i8 => "i8"
  | i16 => "i16"
  | i32 => "i32"
  | i64 => "i64"
  | u8 => "u8"
  | u16 => "u16"
  | u32 => "u32"
  | u64 => "u64"

def signed : IntegerType → Bool
  | i8 | i16 | i32 | i64 => true
  | u8 | u16 | u32 | u64 => false

def min : IntegerType → Int
  | i8 => -0x80
  | i16 => -0x8000
  | i32 => -0x80000000
  | i64 => -0x8000000000000000
  | u8 | u16 | u32 | u64 => 0

def max : IntegerType → Int
  | i8 => 0x7F
  | i16 => 0x7FFF
  | i32 => 0x7FFFFFFF
  | i64 => 0x7FFFFFFFFFFFFFFF
  | u8 => 0xFF
  | u16 => 0xFFFF
  | u32 => 0xFFFFFFFF
  | u64 => 0xFFFFFFFFFFFFFFFF

theorem min_nonpos (t : IntegerType) : t.min ≤ 0 := by cases t <;> decide

theorem max_nonneg (t : IntegerType) : 0 ≤ t.max := by cases t <;> decide

theorem min_i64_le {t : IntegerType} : IntegerType.i64.min ≤ t.min := by cases t <;> decide

end IntegerType

/-- An integer within the range of a type. -/
structure Integer (t : IntegerType) where
  val : Int
  min_le : t.min ≤ val
  le_max : val ≤ t.max
  deriving DecidableEq, Repr

namespace Integer

/-- The value of a type that is a given integer, if the integer is in range. -/
def ofInt? (t : IntegerType) (n : Int) : Option (Integer t) :=
  if h : t.min ≤ n ∧ n ≤ t.max then some ⟨n, h.1, h.2⟩ else none

instance (t : IntegerType) : Inhabited (Integer t) := ⟨⟨0, t.min_nonpos, t.max_nonneg⟩⟩

def zero (t : IntegerType) : Integer t := ⟨0, t.min_nonpos, t.max_nonneg⟩

variable {t : IntegerType}

theorem ext {a b : Integer t} (h : a.val = b.val) : a = b := by
  cases a; cases b; simp_all

theorem ofInt?_val (a : Integer t) : ofInt? t a.val = some a := by
  simp [ofInt?, a.min_le, a.le_max]

theorem val_of_ofInt? {n : Int} {a : Integer t} (h : ofInt? t n = some a) : a.val = n := by
  unfold ofInt? at h
  split at h
  · cases h; rfl
  · cases h

end Integer

end EntitySql
