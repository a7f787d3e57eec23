namespace EntitySql.BigEndian

def bytes : Nat → Nat → List UInt8
  | 0, _ => []
  | width + 1, n => bytes width (n / 256) ++ [(n % 256).toUInt8]

def value (bs : List UInt8) : Nat := bs.foldl (fun n b => n * 256 + b.toNat) 0

def ofInt (width : Nat) (n : Int) : List UInt8 := bytes width (n % Nat.pow 256 width).toNat

def unsigned? (width : Nat) (bs : List UInt8) : Option Nat :=
  if bs.length = width then some (value bs) else none

def signed? (width : Nat) (bs : List UInt8) : Option Int :=
  (unsigned? width bs).map fun n => Int.bmod n (Nat.pow 256 width)

@[simp] theorem length_bytes (width n : Nat) : (bytes width n).length = width := by
  induction width generalizing n with
  | zero => rfl
  | succ width ih => simp [bytes, ih]

theorem value_concat (bs : List UInt8) (b : UInt8) : value (bs ++ [b]) = value bs * 256 + b.toNat := by
  simp [value]

theorem value_bytes (width n : Nat) : value (bytes width n) = n % Nat.pow 256 width := by
  induction width generalizing n with
  | zero => simp [bytes, value, Nat.mod_one]
  | succ width ih =>
    have hb : ((n % 256).toUInt8).toNat = n % 256 := by
      simp
    have hp : Nat.pow 256 (width + 1) = 256 * Nat.pow 256 width := Nat.mul_comm _ _
    rw [bytes, value_concat, ih, hb, hp, Nat.mod_mul]
    omega

theorem unsigned?_bytes (width n : Nat) : unsigned? width (bytes width n) = some (n % Nat.pow 256 width) := by
  simp [unsigned?, value_bytes]

end EntitySql.BigEndian
