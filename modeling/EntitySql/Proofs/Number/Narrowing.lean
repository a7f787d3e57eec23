import EntitySql.Proofs.Number.Widening
import Mathlib.Data.Rat.Defs
import Mathlib.Algebra.Order.Ring.Rat
import Mathlib.Tactic.FieldSimp

namespace EntitySql.Binary

variable {f : Format}

private theorem signBit_eq (f : Format) : f.signBit = f.infinity + Nat.pow 2 f.fractionBits := by
  have hone : 1 ≤ 2 ^ f.exponentBits := Nat.one_le_two_pow
  simp only [Format.signBit, Format.infinity, Nat.pow_eq, Nat.pow_add]
  rw [← Nat.succ_mul]
  congr 1
  omega

private theorem ofWord_ne_nan {negative : Bool} {u : Nat} (hu : u ≤ f.infinity) (sign : Bool) (payload : Nat) :
    Datum.ofWord f (signedWord f negative u) ≠ .nan sign payload := by
  have hrest := (signedWord_div_mod negative (Nat.lt_of_le_of_lt hu (infinity_lt_signBit f))).2
  simp only [Datum.ofWord, hrest]
  split
  · split <;> rintro ⟨⟩
  · rw [if_pos (by omega)]
    rintro ⟨⟩

theorem nearest_le (num den : Nat) : nearest f num den ≤ f.infinity :=
  Nat.min_le_right _ _

private theorem ofWord_nan {payload : Nat} (hpos : 0 < payload) (hpayload : payload < Nat.pow 2 f.fractionBits)
    (negative : Bool) :
    signedWord f negative (f.infinity + payload) < 2 * f.signBit ∧
      Datum.ofWord f (signedWord f negative (f.infinity + payload)) = .nan negative payload := by
  have hsign := signBit_eq f
  have hword : f.infinity + payload < f.signBit := by omega
  have hinfinity : f.infinity % Nat.pow 2 f.fractionBits = 0 := Nat.mul_mod_left _ _
  have hfraction : (f.infinity + payload) % Nat.pow 2 f.fractionBits = payload := by
    rw [Nat.add_mod, hinfinity, Nat.zero_add, Nat.mod_mod, Nat.mod_eq_of_lt hpayload]
  obtain ⟨hnegative, hrest⟩ := signedWord_div_mod negative hword
  refine ⟨signedWord_lt hword, ?_⟩
  simp only [Datum.ofWord, hnegative, hrest, hfraction]
  rw [if_neg (by omega), if_neg (by omega)]

/-- The fraction of a quiet NaN has the highest bit and what fits of the payload. -/
theorem ofWord_quietNan (hf : 0 < f.fractionBits) (negative : Bool) (payload : Nat) :
    quietNan f negative payload < 2 * f.signBit ∧
      Datum.ofWord f (quietNan f negative payload) =
        .nan negative (Nat.pow 2 (f.fractionBits - 1) + payload % Nat.pow 2 (f.fractionBits - 1)) := by
  have hquiet : 0 < Nat.pow 2 (f.fractionBits - 1) := Nat.two_pow_pos _
  have hunit : Nat.pow 2 f.fractionBits = 2 * Nat.pow 2 (f.fractionBits - 1) := by
    rw [Nat.pow_eq, Nat.pow_eq, ← Nat.pow_succ', Nat.succ_eq_add_one, Nat.sub_add_cancel hf]
  have hpayload := Nat.mod_lt payload hquiet
  exact ofWord_nan (by omega) (by omega) negative

private theorem convert_nan {source target : Format} {w payload : Nat} {negative : Bool}
    (h : Datum.ofWord source w = .nan negative payload) :
    convert source target w =
      quietNan target negative (payload * 2 ^ target.fractionBits / 2 ^ source.fractionBits) := by
  rw [convert, h]
  rfl

def widePayload (payload : Nat) : Nat := payload * 2 ^ 52 / 2 ^ 23

private theorem convert_double_nan {w payload : Nat} {negative : Bool}
    (h : Datum.ofWord single w = .nan negative payload) :
    convert single double w = quietNan double negative (widePayload payload) := convert_nan h

private theorem convert_double_quietNan (negative : Bool) (payload : Nat) :
    convert single double (quietNan single negative payload) =
      quietNan double negative (widePayload payload) := by
  rw [convert_nan (ofWord_quietNan (by decide) negative payload).2]
  have hpayload : (2 ^ 22 + payload % 2 ^ 22) * 2 ^ 52 / 2 ^ 23 % 2 ^ 51 = payload * 2 ^ 52 / 2 ^ 23 % 2 ^ 51 := by
    omega
  exact congrArg (fun p => signedWord double negative (double.infinity + (2 ^ 51 + p))) hpayload

private theorem convert_single_quietNan (negative : Bool) (payload : Nat) :
    convert double single (quietNan double negative (widePayload payload)) =
      quietNan single negative payload := by
  rw [convert_nan (ofWord_quietNan (by decide) negative _).2]
  have hpayload : (2 ^ 51 + payload * 2 ^ 52 / 2 ^ 23 % 2 ^ 51) * 2 ^ 23 / 2 ^ 52 % 2 ^ 22 = payload % 2 ^ 22 := by
    omega
  exact congrArg (fun p => signedWord single negative (single.infinity + (2 ^ 22 + p))) hpayload

/-- An integer of at most one bit more than a fraction has is canonical, unless its power is out of reach. -/
theorem canonical_integer {n : Nat} (hn : n ≤ 2 ^ (f.fractionBits + 1)) (hdepth : f.fractionBits ≤ f.depth)
    (hroom : (f.depth + 3) * 2 ^ f.fractionBits ≤ f.infinity) :
    ∃ m k, Canonical f m k ∧ m * 2 ^ k = n * 2 ^ f.depth := by
  have hunit : 0 < 2 ^ f.fractionBits := Nat.two_pow_pos _
  have hinfinity : 0 < f.infinity := Nat.lt_of_lt_of_le (Nat.mul_pos (Nat.succ_pos _) hunit) hroom
  by_cases hzero : n = 0
  · subst hzero
    exact ⟨0, 0, ⟨by simp, .inl rfl, by simpa using hinfinity⟩, by simp⟩
  rcases Nat.lt_or_eq_of_le hn with hsmall | rfl
  · have hlog : n.log2 < f.fractionBits + 1 := (Nat.log2_lt hzero).mpr hsmall
    refine canonical_scaled hzero hsmall (by omega) (Nat.le_trans ?_ hroom)
    exact Nat.mul_le_mul_right _ (by omega)
  · -- The greatest one has one bit too many, all but the first of them zero.
    have hone : Nat.log2 1 = 0 := by decide
    obtain ⟨m, k, hcanonical, hvalue⟩ :=
      canonical_scaled (f := f) (n := 1) (e := f.fractionBits + 1 + f.depth) (by decide)
        (by rw [Nat.pow_succ']; omega) (by omega) (by
          refine Nat.le_trans ?_ hroom
          rw [hone]
          exact Nat.mul_le_mul_right _ (by omega))
    refine ⟨m, k, hcanonical, ?_⟩
    rw [hvalue, Nat.one_mul, Nat.pow_add]

private theorem ofWord_ofInt {n : Int} (hn : n.natAbs ≤ 2 ^ (f.fractionBits + 1)) (hdepth : f.fractionBits ≤ f.depth)
    (hroom : (f.depth + 3) * 2 ^ f.fractionBits ≤ f.infinity) :
    ofInt f n < 2 * f.signBit ∧
      ∃ m k, Datum.ofWord f (ofInt f n) = .finite (n < 0) m k ∧ m * 2 ^ k = n.natAbs * 2 ^ f.depth := by
  obtain ⟨m, k, hcanonical, hvalue⟩ := canonical_integer hn hdepth hroom
  have hword : ofInt f n = signedWord f (n < 0) (k * Nat.pow 2 f.fractionBits + m) := by
    rw [ofInt, Nat.pow_eq, ← hvalue, ← nearest_canonical hcanonical Nat.one_pos, Nat.mul_one]
  rw [hword]
  exact ⟨signedWord_lt (Nat.lt_trans hcanonical.finite (infinity_lt_signBit f)), m, k,
    ofWord_canonical hcanonical _, hvalue⟩

/-- What a word stands for as a number: a rational one, an infinity, or none. -/
inductive Quantity where
  | rational (q : ℚ)
  | infinite (negative : Bool)
  | undefined
  deriving DecidableEq

/-- A finite word of a format counts numbers of the least size. -/
def Datum.quantity (f : Format) : Datum → Quantity
  | finite negative m k => .rational ((if negative then -1 else 1) * (m * 2 ^ k / 2 ^ f.depth))
  | infinite negative => .infinite negative
  | nan _ _ => .undefined

/-- A number that is counted in smaller units. -/
theorem ratio_scaled {m k n l e : Nat} (h : n * 2 ^ l = m * 2 ^ (k + e)) (d : Nat) :
    (n * 2 ^ l / 2 ^ (e + d) : ℚ) = m * 2 ^ k / 2 ^ d := by
  have hcount : (n * 2 ^ l : ℚ) = m * 2 ^ k * 2 ^ e := by
    rw [mul_assoc, ← pow_add]
    exact_mod_cast h
  rw [hcount, Nat.add_comm e d, pow_add]
  exact mul_div_mul_right _ _ (by positivity)

private theorem quantity_finite {n : Int} {m k : Nat} (h : m * 2 ^ k = n.natAbs * 2 ^ f.depth) :
    (Datum.finite (n < 0) m k).quantity f = .rational n := by
  have hcount : (m * 2 ^ k : ℚ) = n.natAbs * 2 ^ f.depth := by exact_mod_cast h
  have hunit : (2 ^ f.depth : ℚ) ≠ 0 := by positivity
  have hsize : (m * 2 ^ k / 2 ^ f.depth : ℚ) = ((n.natAbs : Int) : ℚ) := by
    rw [hcount, mul_div_cancel_right₀ _ hunit, Int.cast_natCast]
  simp only [Datum.quantity, hsize, decide_eq_true_eq]
  congr 1
  split
  · rename_i hnegative
    have habs : (n.natAbs : Int) = -n := by omega
    rw [habs, Int.cast_neg, neg_one_mul, neg_neg]
  · rename_i hnegative
    have habs : (n.natAbs : Int) = n := by omega
    rw [habs, one_mul]

end EntitySql.Binary

namespace EntitySql.Double

open Binary

def quantity (x : Double) : Quantity := x.datum.quantity double

private theorem toNat_ofNat {w : Nat} (h : w < 2 * double.signBit) : (ofNat w).word.toNat = w :=
  Nat.mod_eq_of_lt h

/-- Integers up to two to the number of significant bits are exact. -/
theorem quantity_ofInt {n : Int} (h : n.natAbs ≤ 2 ^ 53) : (ofInt n).quantity = .rational n := by
  obtain ⟨hword, m, k, hdatum, hvalue⟩ := ofWord_ofInt (f := double) h (by decide) (by decide)
  unfold quantity datum ofInt
  rw [toNat_ofNat hword, hdatum, quantity_finite hvalue]

end EntitySql.Double

namespace EntitySql.Single

open Binary

def quantity (x : Single) : Quantity := x.datum.quantity single

private theorem toNat_ofNat {w : Nat} (h : w < 2 * single.signBit) : (ofNat w).word.toNat = w :=
  Nat.mod_eq_of_lt h

theorem quantity_ofInt {n : Int} (h : n.natAbs ≤ 2 ^ 24) : (ofInt n).quantity = .rational n := by
  obtain ⟨hword, m, k, hdatum, hvalue⟩ := ofWord_ofInt (f := single) h (by decide) (by decide)
  unfold quantity datum ofInt
  rw [toNat_ofNat hword, hdatum, quantity_finite hvalue]

private theorem isNan_eq_false_iff {x : Single} :
    x.isNan = false ↔ ∀ negative payload, x.datum ≠ .nan negative payload := by
  unfold isNan
  cases x.datum with
  | nan negative payload => simp
  | _ => simp

theorem isNan_ofInt {n : Int} (h : n.natAbs ≤ 2 ^ 24) : (ofInt n).isNan = false := by
  refine isNan_eq_false_iff.mpr fun negative payload hnan => ?_
  have hquantity := quantity_ofInt h
  rw [quantity, hnan] at hquantity
  cases hquantity

section Quiet

variable (negative : Bool) (payload : Nat)

private theorem toDouble_quietNan : (ofNat (quietNan single negative payload)).toDouble =
    .ofNat (quietNan double negative (widePayload payload)) := by
  have hword := toNat_ofNat (ofWord_quietNan (f := single) (by decide) negative payload).1
  rw [toDouble, hword, convert_double_quietNan]

private theorem ofDouble_quietNan : ofDouble (.ofNat (quietNan double negative (widePayload payload))) =
    ofNat (quietNan single negative payload) := by
  have hword := Double.toNat_ofNat (ofWord_quietNan (f := double) (by decide) negative (widePayload payload)).1
  rw [ofDouble, hword, convert_single_quietNan]

end Quiet

/-- Narrowing a widened number and widening it again changes nothing, whether it is a number or not. -/
theorem toDouble_ofDouble_toDouble (x : Single) : (ofDouble x.toDouble).toDouble = x.toDouble := by
  cases hdatum : x.datum with
  | nan negative payload =>
    have hwide : x.toDouble = .ofNat (quietNan double negative (widePayload payload)) :=
      congrArg Double.ofNat (convert_double_nan hdatum)
    rw [hwide, ofDouble_quietNan, toDouble_quietNan]
  | _ =>
    have hnumber : x.isNan = false := isNan_eq_false_iff.mpr fun _ _ => by rw [hdatum]; nofun
    rw [ofDouble_toDouble hnumber]

/-- A number is the same in double precision. -/
theorem quantity_toDouble (x : Single) : x.toDouble.quantity = x.quantity := by
  have hword : x.word.toNat < 2 * single.signBit := x.word.isLt
  have hwide {w : Nat} (hw : w < 2 * double.signBit) (h : convert single double x.word.toNat = w) :
      x.toDouble.quantity = (Datum.ofWord double w).quantity double := by
    rw [toDouble, h, Double.quantity, Double.datum, Double.toNat_ofNat hw]
  cases hdatum : x.datum with
  | nan negative payload =>
    obtain ⟨hbound, hnan⟩ := ofWord_quietNan (f := double) (by decide) negative (widePayload payload)
    rw [hwide hbound (convert_double_nan hdatum), hnan, quantity, hdatum, Datum.quantity, Datum.quantity]
  | infinite negative =>
    obtain ⟨hthere, hinfinite⟩ := convert_double_infinite hdatum
    have hbound : signedWord double negative double.infinity < 2 * double.signBit :=
      signedWord_lt (infinity_lt_signBit double)
    rw [hwide hbound hthere, hinfinite, quantity, hdatum, Datum.quantity, Datum.quantity]
  | finite negative m k =>
    obtain ⟨n, l, hcanonical, hvalue, hthere⟩ := convert_double_finite hword hdatum
    have hbound : signedWord double negative (l * Nat.pow 2 double.fractionBits + n) < 2 * double.signBit :=
      signedWord_lt (Nat.lt_trans hcanonical.finite (infinity_lt_signBit double))
    have hdepth : double.depth = 925 + single.depth := by decide
    have hsize : (n * 2 ^ l / 2 ^ double.depth : ℚ) = m * 2 ^ k / 2 ^ single.depth := by
      rw [hdepth]
      exact ratio_scaled hvalue single.depth
    rw [hwide hbound hthere, ofWord_canonical hcanonical, quantity, hdatum, Datum.quantity, Datum.quantity, hsize]

theorem isNan_ofNat {negative : Bool} {u : Nat} (hu : u ≤ single.infinity) :
    (ofNat (signedWord single negative u)).isNan = false := by
  have hbound : signedWord single negative u < 2 * single.signBit :=
    signedWord_lt (Nat.lt_of_le_of_lt hu (infinity_lt_signBit single))
  have hword := toNat_ofNat hbound
  refine isNan_eq_false_iff.mpr fun sign payload => ?_
  rw [datum, hword]
  exact ofWord_ne_nan hu sign payload

/-- A narrowed number is what it is in double precision, narrowed. -/
theorem ofDouble_toDouble_ofDouble (x : Double) : ofDouble (ofDouble x).toDouble = ofDouble x := by
  cases hdatum : x.datum with
  | nan negative payload =>
    have hnarrow : ofDouble x = ofNat (quietNan single negative (payload * 2 ^ 23 / 2 ^ 52)) :=
      congrArg ofNat (convert_nan hdatum)
    rw [hnarrow, toDouble_quietNan, ofDouble_quietNan]
  | infinite negative =>
    have hnarrow : ofDouble x = ofNat (signedWord single negative single.infinity) := by
      rw [ofDouble, convert]
      unfold Double.datum at hdatum
      rw [hdatum]
    rw [hnarrow, ofDouble_toDouble (isNan_ofNat (Nat.le_refl _))]
  | finite negative m k =>
    have hnarrow : ofDouble x = ofNat (signedWord single negative
        (nearest single (m * 2 ^ (k + single.depth)) (2 ^ double.depth))) :=
      congrArg ofNat (convert_finite hdatum)
    rw [hnarrow, ofDouble_toDouble (isNan_ofNat (nearest_le _ _))]

end EntitySql.Single
