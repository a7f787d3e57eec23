import EntitySql.Number.BigEndian
import EntitySql.Uuid
import Mathlib.Data.List.Induction
import Mathlib.Tactic.Ring

namespace EntitySql.BigEndian

/-- The integers of two's complement in a width. -/
def Fits (width : Nat) (n : Int) : Prop :=
  -(256 ^ width : Int) ≤ 2 * n ∧ 2 * n < 256 ^ width

private theorem value_lt (bs : List UInt8) : value bs < 256 ^ bs.length := by
  induction bs using List.reverseRecOn with
  | nil => decide
  | append_singleton bs b ih =>
    have hb : b.toNat < 256 := b.toNat_lt
    rw [value_concat, List.length_append, List.length_singleton, Nat.pow_succ]
    omega

theorem unsigned?_eq_some {width : Nat} {bs : List UInt8} {n : Nat} (h : unsigned? width bs = some n) :
    bs.length = width ∧ n < 256 ^ width := by
  unfold unsigned? at h
  split at h
  · rename_i hlength
    cases h
    exact ⟨hlength, hlength ▸ value_lt bs⟩
  · cases h

private theorem signed?_eq_map (width : Nat) (bs : List UInt8) :
    signed? width bs = (unsigned? width bs).map fun n : Nat => Int.bmod n (256 ^ width) := by
  unfold signed?
  cases unsigned? width bs with
  | none => rfl
  | some n => rfl

/-- What is read as signed fits the width, if there is a byte for the sign. -/
theorem signed?_eq_some {width : Nat} {bs : List UInt8} {n : Int} (h : signed? (width + 1) bs = some n) :
    bs.length = width + 1 ∧ Fits (width + 1) n := by
  rw [signed?_eq_map] at h
  obtain ⟨u, hu, rfl⟩ := Option.map_eq_some_iff.mp h
  have hpos : 0 < 256 ^ (width + 1) := Nat.pow_pos (by decide)
  have hlow : -(((256 ^ (width + 1) : Nat) : Int) / 2) ≤ Int.bmod u (256 ^ (width + 1)) := Int.le_bmod hpos
  have hhigh : Int.bmod u (256 ^ (width + 1)) < (((256 ^ (width + 1) : Nat) : Int) + 1) / 2 :=
    Int.bmod_lt hpos
  have heven : 256 ^ (width + 1) = 2 * (128 * 256 ^ width) := by ring
  have hpower : (256 ^ (width + 1) : Int) = ((256 ^ (width + 1) : Nat) : Int) := by norm_cast
  refine ⟨(unsigned?_eq_some hu).1, ?_⟩
  unfold Fits
  rw [hpower]
  generalize 256 ^ (width + 1) = modulus at *
  constructor
  · omega
  · omega

theorem signed?_ofInt {width : Nat} {n : Int} (h : Fits width n) : signed? width (ofInt width n) = some n := by
  obtain ⟨hlow, hhigh⟩ := h
  have hpower : (256 ^ width : Int) = ((256 ^ width : Nat) : Int) := by norm_cast
  have hpos : 0 < 256 ^ width := Nat.pow_pos (by decide)
  rw [hpower] at hlow hhigh
  have hword : ((n % (256 ^ width : Nat)).toNat : Int) = n % (256 ^ width : Nat) :=
    Int.toNat_of_nonneg (Int.emod_nonneg _ (by omega))
  have hbelow : (n % (256 ^ width : Nat)).toNat < 256 ^ width := by
    have := Int.emod_lt_of_pos n (b := (256 ^ width : Nat)) (by omega)
    omega
  have hread : unsigned? width (ofInt width n) = some (n % (256 ^ width : Nat)).toNat := by
    rw [ofInt, Nat.pow_eq, unsigned?_bytes, Nat.pow_eq, Nat.mod_eq_of_lt hbelow]
  have hreduce : Int.bmod n (256 ^ width) = n := Int.bmod_eq_of_le_mul_two (by omega) (by omega)
  rw [signed?_eq_map, hread, Option.map_some, hword, Int.emod_bmod, hreduce]

theorem unsigned?_ofInt {width n : Nat} (h : n < 256 ^ width) : unsigned? width (ofInt width n) = some n := by
  have hword : ((n : Int) % (256 ^ width : Nat)).toNat = n := by
    rw [← Int.natCast_mod, Int.toNat_natCast, Nat.mod_eq_of_lt h]
  rw [ofInt, Nat.pow_eq, hword, unsigned?_bytes, Nat.pow_eq, Nat.mod_eq_of_lt h]

private theorem bytes_eq_map (width n : Nat) :
    bytes width n = (List.range width).map fun i => (n / Nat.pow 256 (width - 1 - i) % 256).toUInt8 := by
  induction width generalizing n with
  | zero => rfl
  | succ width ih =>
    rw [bytes, ih, List.range_succ, List.map_append, List.map_singleton]
    congr 1
    · refine List.map_congr_left fun i hi => ?_
      have hi : i < width := List.mem_range.mp hi
      have hexponent : width + 1 - 1 - i = width - 1 - i + 1 := by omega
      rw [hexponent, Nat.pow_eq, Nat.pow_eq, Nat.pow_succ', Nat.div_div_eq_div_mul]
    · simp

end EntitySql.BigEndian

namespace EntitySql.Uuid

private theorem bytes_eq (u : Uuid) : u.bytes = BigEndian.bytes 16 u.bits.toNat :=
  (BigEndian.bytes_eq_map 16 _).symm

@[simp] theorem length_bytes (u : Uuid) : u.bytes.length = 16 := by
  simp [bytes]

theorem ofBytes?_bytes (u : Uuid) : ofBytes? u.bytes = some u := by
  have hpower : Nat.pow 256 16 = 2 ^ 128 := rfl
  have hbits : u.bits.toNat < 2 ^ 128 := u.bits.isLt
  have hvalue : u.bytes.foldl (fun n b => n * 256 + b.toNat) 0 = u.bits.toNat := by
    change BigEndian.value u.bytes = _
    rw [bytes_eq, BigEndian.value_bytes, hpower, Nat.mod_eq_of_lt hbits]
  rw [ofBytes?, if_pos u.length_bytes, hvalue, BitVec.ofNat_toNat, BitVec.setWidth_eq]

end EntitySql.Uuid
