import EntitySql.Number.Binary
import Mathlib.Tactic.Linarith
import Mathlib.Tactic.Ring

namespace EntitySql.Binary

variable {f : Format} {m k : Nat}

/-- A coefficient and an offset that a finite word of a format stands for. -/
structure Canonical (f : Format) (m k : Nat) : Prop where
  small : m < 2 * Nat.pow 2 f.fractionBits
  normal : k = 0 ∨ Nat.pow 2 f.fractionBits ≤ m
  finite : k * Nat.pow 2 f.fractionBits + m < f.infinity

theorem infinity_lt_signBit (f : Format) : f.infinity < f.signBit := by
  have hfraction : 0 < 2 ^ f.fractionBits := Nat.two_pow_pos _
  have hexponent : 2 ^ f.exponentBits - 1 < 2 ^ f.exponentBits :=
    Nat.sub_lt (Nat.two_pow_pos _) Nat.one_pos
  simp only [Format.infinity, Format.signBit, Nat.pow_eq, Nat.pow_add]
  exact Nat.mul_lt_mul_of_pos_right hexponent hfraction

theorem signedWord_div_mod (negative : Bool) {u : Nat} (hu : u < f.signBit) :
    (decide (signedWord f negative u / f.signBit % 2 = 1) = negative) ∧
      signedWord f negative u % f.signBit = u := by
  have hpos : 0 < f.signBit := Nat.lt_of_le_of_lt (Nat.zero_le u) hu
  cases negative with
  | false =>
    have hword : signedWord f false u = u := rfl
    rw [hword, Nat.div_eq_of_lt hu, Nat.mod_eq_of_lt hu]
    exact ⟨rfl, rfl⟩
  | true =>
    have hword : signedWord f true u = f.signBit + u := rfl
    rw [hword, Nat.add_div_left u hpos, Nat.div_eq_of_lt hu, Nat.add_mod_left, Nat.mod_eq_of_lt hu]
    exact ⟨rfl, rfl⟩

/-- The word of a canonical coefficient and offset stands for them. -/
theorem ofWord_canonical (h : Canonical f m k) (negative : Bool) :
    Datum.ofWord f (signedWord f negative (k * Nat.pow 2 f.fractionBits + m)) = .finite negative m k := by
  have hpos : 0 < Nat.pow 2 f.fractionBits := Nat.two_pow_pos _
  obtain ⟨hsign, hrest⟩ :=
    signedWord_div_mod negative (Nat.lt_trans h.finite (infinity_lt_signBit f))
  simp only [Datum.ofWord, hsign, hrest, if_pos h.finite]
  obtain ⟨hsmall, hnormal, -⟩ := h
  generalize Nat.pow 2 f.fractionBits = unit at *
  by_cases hm : m < unit
  · have hk : k = 0 := by omega
    subst hk
    rw [Nat.zero_mul, Nat.zero_add, Nat.div_eq_of_lt hm, Nat.mod_eq_of_lt hm, if_pos rfl]
  · -- A normal coefficient has its leading bit in the exponent.
    obtain ⟨fraction, rfl⟩ := Nat.exists_eq_add_of_le (Nat.le_of_not_lt hm)
    have hfraction : fraction < unit := by omega
    have hword : k * unit + (unit + fraction) = fraction + (k + 1) * unit := by ring
    rw [hword, Nat.add_mul_div_right _ _ hpos, Nat.add_mul_mod_self_right, Nat.div_eq_of_lt hfraction,
      Nat.mod_eq_of_lt hfraction, Nat.zero_add, if_neg (Nat.succ_ne_zero k), Nat.add_sub_cancel]

/-- A word is its rest under its sign. -/
theorem signedWord_rest {w : Nat} (hw : w < 2 * f.signBit) :
    w = signedWord f (decide (w / f.signBit % 2 = 1)) (w % f.signBit) := by
  have hdivide := Nat.div_add_mod w f.signBit
  have hsign : w / f.signBit < 2 := Nat.div_lt_of_lt_mul (Nat.mul_comm 2 _ ▸ hw)
  generalize w / f.signBit = sign at *
  generalize w % f.signBit = rest at *
  obtain rfl | rfl : sign = 0 ∨ sign = 1 := by omega
  · simpa [signedWord] using hdivide.symm
  · simpa [signedWord] using hdivide.symm

/-- A finite word stands for a canonical coefficient and offset, and is their word. -/
theorem canonical_ofWord {w : Nat} (hw : w < 2 * f.signBit) {negative : Bool}
    (h : Datum.ofWord f w = .finite negative m k) :
    Canonical f m k ∧ w = signedWord f negative (k * Nat.pow 2 f.fractionBits + m) := by
  have hpos : 0 < Nat.pow 2 f.fractionBits := Nat.two_pow_pos _
  have hword := signedWord_rest hw
  have hdivide := Nat.div_add_mod (w % f.signBit) (Nat.pow 2 f.fractionBits)
  have hfraction := Nat.mod_lt (w % f.signBit) hpos
  simp only [Datum.ofWord] at h
  split at h
  · rename_i hfinite
    split at h
    · rename_i hexponent
      cases h
      rw [hexponent, Nat.mul_zero, Nat.zero_add] at hdivide
      refine ⟨⟨by omega, .inl rfl, ?_⟩, ?_⟩
      · rwa [Nat.zero_mul, Nat.zero_add, hdivide]
      · rwa [Nat.zero_mul, Nat.zero_add, hdivide]
    · rename_i hexponent
      cases h
      obtain ⟨exponent, he⟩ := Nat.exists_eq_succ_of_ne_zero hexponent
      have hrest : exponent * Nat.pow 2 f.fractionBits + (Nat.pow 2 f.fractionBits +
          w % f.signBit % Nat.pow 2 f.fractionBits) = w % f.signBit := by
        rw [he, Nat.succ_eq_add_one] at hdivide
        linarith
      rw [he, Nat.succ_sub_one, hrest]
      refine ⟨⟨by omega, .inr (Nat.le_add_right _ _), ?_⟩, hword⟩
      rwa [hrest]
  · split at h <;> cases h

private theorem log2_canonical (h : Canonical f m k) : (m * 2 ^ k).log2 - f.fractionBits = k := by
  obtain ⟨hsmall, hnormal, -⟩ := h
  rw [Nat.pow_eq, ← Nat.pow_succ'] at hsmall
  rcases hnormal with rfl | hnormal
  · rw [Nat.pow_zero, Nat.mul_one]
    by_cases hm : m = 0
    · simp [hm]
    · have hlog := (Nat.log2_lt hm).mpr hsmall
      omega
  · have hpos : 0 < 2 ^ f.fractionBits := Nat.two_pow_pos _
    have hm : m ≠ 0 := Nat.ne_of_gt (Nat.lt_of_lt_of_le hpos hnormal)
    have hlog : (m * 2 ^ k).log2 = f.fractionBits + k := by
      refine (Nat.log2_eq_iff (Nat.mul_ne_zero hm (Nat.ne_of_gt (Nat.two_pow_pos k)))).mpr ⟨?_, ?_⟩
      · rw [Nat.pow_add]
        exact Nat.mul_le_mul_right _ hnormal
      · rw [Nat.add_right_comm, Nat.pow_add]
        exact Nat.mul_lt_mul_of_pos_right hsmall (Nat.two_pow_pos k)
    omega

theorem nearest_canonical (h : Canonical f m k) {den : Nat} (hden : 0 < den) :
    nearest f (m * 2 ^ k * den) den = k * Nat.pow 2 f.fractionBits + m := by
  have hratio : m * 2 ^ k * den = m * (den * 2 ^ k) := by ring
  have hunit : 0 < den * 2 ^ k := Nat.mul_pos hden (Nat.two_pow_pos k)
  unfold nearest
  simp only [Nat.mul_div_cancel _ hden, log2_canonical h, Nat.pow_eq]
  rw [hratio, divideEven_mul m hunit]
  exact Nat.min_eq_left (Nat.le_of_lt h.finite)

theorem signedWord_lt {negative : Bool} {u : Nat} (hu : u < f.signBit) :
    signedWord f negative u < 2 * f.signBit := by
  unfold signedWord
  split <;> omega

/-- A number of few bits times a power of two is canonical, unless the power is out of reach. -/
theorem canonical_scaled {n e : Nat} (hn : n ≠ 0) (hsmall : n < 2 ^ (f.fractionBits + 1))
    (hlow : f.fractionBits ≤ n.log2 + e)
    (hroom : (n.log2 + e - f.fractionBits + 2) * 2 ^ f.fractionBits ≤ f.infinity) :
    ∃ m k, Canonical f m k ∧ m * 2 ^ k = n * 2 ^ e := by
  have hbelow : 2 ^ n.log2 ≤ n := Nat.log2_self_le hn
  have habove : n < 2 ^ (n.log2 + 1) := Nat.lt_log2_self
  have hlog : n.log2 < f.fractionBits + 1 := (Nat.log2_lt hn).mpr hsmall
  generalize n.log2 = b at *
  -- The leading bit goes to the place that the format has for it.
  have hunit : 2 ^ f.fractionBits = 2 ^ b * 2 ^ (f.fractionBits - b) := by
    rw [← Nat.pow_add]
    congr 1
    omega
  have hexponent : f.fractionBits - b + (b + e - f.fractionBits) = e := by omega
  have hscale : 0 < 2 ^ (f.fractionBits - b) := Nat.two_pow_pos _
  have hcoefficient : n * 2 ^ (f.fractionBits - b) < 2 * 2 ^ f.fractionBits := by
    have hmul := Nat.mul_lt_mul_of_pos_right habove hscale
    rwa [Nat.pow_succ', Nat.mul_assoc, ← hunit] at hmul
  have hnormal : 2 ^ f.fractionBits ≤ n * 2 ^ (f.fractionBits - b) :=
    hunit ▸ Nat.mul_le_mul_right _ hbelow
  refine ⟨n * 2 ^ (f.fractionBits - b), b + e - f.fractionBits,
    ⟨hcoefficient, .inr hnormal, ?_⟩, ?_⟩
  · rw [Nat.add_mul] at hroom
    exact Nat.lt_of_lt_of_le (Nat.add_lt_add_left hcoefficient _) hroom
  · rw [Nat.mul_assoc, ← Nat.pow_add, hexponent]

/-- Each finite number of the narrow format is canonical in the wide one, where it is counted in smaller
units. -/
theorem canonical_double (h : Canonical single m k) :
    ∃ n l, Canonical double n l ∧ n * 2 ^ l = m * 2 ^ (k + 925) := by
  have hsmall : m < 2 ^ 24 := h.small
  have hfinite : k * 2 ^ 23 + m < 255 * 2 ^ 23 := h.finite
  by_cases hm : m = 0
  · subst hm
    exact ⟨0, 0, ⟨by decide, .inl rfl, by decide⟩, by simp⟩
  · have hlog : m.log2 < 24 := (Nat.log2_lt hm).mpr hsmall
    have hoffset : k < 255 := Nat.lt_of_mul_lt_mul_right (Nat.lt_of_le_of_lt (Nat.le_add_right _ m) hfinite)
    have hfraction : double.fractionBits = 52 := rfl
    have hinfinity : double.infinity = 2047 * 2 ^ 52 := by decide
    refine canonical_scaled hm (by rw [hfraction]; omega) (by rw [hfraction]; omega) ?_
    rw [hfraction, hinfinity]
    exact Nat.mul_le_mul_right _ (by omega)

theorem convert_finite {source target : Format} {w : Nat} {negative : Bool}
    (h : Datum.ofWord source w = .finite negative m k) :
    convert source target w =
      signedWord target negative (nearest target (m * 2 ^ (k + target.depth)) (2 ^ source.depth)) := by
  rw [convert, h]
  rfl

/-- A finite word of the narrow format in the wide one: the canonical word for the same number. -/
theorem convert_double_finite {w : Nat} (hw : w < 2 * single.signBit) {negative : Bool}
    (h : Datum.ofWord single w = .finite negative m k) :
    ∃ n l, Canonical double n l ∧ n * 2 ^ l = m * 2 ^ (k + 925) ∧
      convert single double w = signedWord double negative (l * Nat.pow 2 double.fractionBits + n) := by
  obtain ⟨hnarrow, -⟩ := canonical_ofWord hw h
  obtain ⟨n, l, hwide, hvalue⟩ := canonical_double hnarrow
  have hdepth : double.depth = 925 + single.depth := by decide
  have hwiden : m * 2 ^ (k + double.depth) = n * 2 ^ l * 2 ^ single.depth := by
    rw [hvalue, Nat.mul_assoc, ← Nat.pow_add, hdepth, Nat.add_assoc]
  refine ⟨n, l, hwide, hvalue, ?_⟩
  rw [convert_finite h, hwiden, nearest_canonical hwide (Nat.two_pow_pos _)]

theorem convert_double_infinite {w : Nat} {negative : Bool} (h : Datum.ofWord single w = .infinite negative) :
    convert single double w = signedWord double negative double.infinity ∧
      Datum.ofWord double (signedWord double negative double.infinity) = .infinite negative := by
  refine ⟨?_, ?_⟩
  · rw [convert, h]
  · cases negative <;> decide

/-- A word of the narrow format is a word of the wide one for the same number, and comes back from it. -/
theorem convert_widened {w : Nat} (hw : w < 2 * single.signBit)
    (hnumber : ∀ negative payload, Datum.ofWord single w ≠ .nan negative payload) :
    convert single double w < 2 * double.signBit ∧
      convert double single (convert single double w) = w := by
  cases hdatum : Datum.ofWord single w with
  | nan negative payload => exact absurd hdatum (hnumber negative payload)
  | infinite negative =>
    have hword : w = signedWord single negative single.infinity := by
      have hrest := signedWord_rest hw
      simp only [Datum.ofWord] at hdatum
      split at hdatum
      · split at hdatum <;> cases hdatum
      · split at hdatum
        · rename_i hinfinite
          cases hdatum
          rwa [hinfinite] at hrest
        · cases hdatum
    obtain ⟨hthere, hhere⟩ := convert_double_infinite hdatum
    refine ⟨?_, ?_⟩
    · rw [hthere]
      exact signedWord_lt (infinity_lt_signBit double)
    · rw [hthere, convert, hhere, hword]
  | finite negative m k =>
    obtain ⟨hnarrow, hword⟩ := canonical_ofWord hw hdatum
    obtain ⟨n, l, hwide, hvalue, hthere⟩ := convert_double_finite hw hdatum
    have hdepth : double.depth = 925 + single.depth := by decide
    have hback : n * 2 ^ (l + single.depth) = m * 2 ^ k * 2 ^ double.depth := by
      rw [Nat.pow_add, ← Nat.mul_assoc, hvalue, Nat.mul_assoc, Nat.mul_assoc, ← Nat.pow_add, ← Nat.pow_add, hdepth,
        Nat.add_assoc]
    have hhere : convert double single (convert single double w) =
        signedWord single negative (k * Nat.pow 2 single.fractionBits + m) := by
      rw [hthere, convert_finite (ofWord_canonical hwide negative), hback,
        nearest_canonical hnarrow (Nat.two_pow_pos _)]
    refine ⟨?_, hhere.trans hword.symm⟩
    rw [hthere]
    exact signedWord_lt (Nat.lt_trans hwide.finite (infinity_lt_signBit double))

end EntitySql.Binary

namespace EntitySql.Single

open Binary

/-- A single-precision number is what it is in double precision, rounded. -/
theorem ofDouble_toDouble {x : Single} (h : x.isNan = false) : ofDouble x.toDouble = x := by
  have hw : x.word.toNat < 2 * single.signBit := x.word.isLt
  have hnumber : ∀ negative payload, Datum.ofWord single x.word.toNat ≠ .nan negative payload := by
    intro negative payload hnan
    unfold isNan datum at h
    rw [hnan] at h
    cases h
  obtain ⟨hwide, hback⟩ := convert_widened hw hnumber
  have hword : x.toDouble.word.toNat = convert single double x.word.toNat := by
    unfold toDouble Double.ofNat
    rw [BitVec.toNat_ofNat]
    exact Nat.mod_eq_of_lt hwide
  unfold ofDouble
  rw [hword, hback]
  unfold ofNat
  rw [BitVec.ofNat_toNat, BitVec.setWidth_eq]

end EntitySql.Single
