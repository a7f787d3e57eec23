import EntitySql.Text.Utf8

namespace EntitySql.Text.Utf8

/-- A byte that follows carries six bits. -/
def tailByte (r : Nat) : UInt8 := (0x80 + r).toUInt8

private theorem toNat_tailByte {r : Nat} (h : r < 64) : (tailByte r).toNat = 0x80 + r := by
  have hbyte : 0x80 + r < 256 := by omega
  simp [tailByte, Nat.mod_eq_of_lt hbyte]

private theorem tailBits_tailByte {r : Nat} (h : r < 64) : tailBits (tailByte r) = r := by
  rw [tailBits, toNat_tailByte h]
  omega

private theorem tailByte_within {low high r : Nat} (hlow : low ≤ r) (hhigh : r ≤ high) (h : high < 64) :
    (tailByte low ≤ tailByte r && tailByte r ≤ tailByte high) = true := by
  have hr : r < 64 := by omega
  have hl : low < 64 := by omega
  simp only [Bool.and_eq_true, decide_eq_true_eq, UInt8.le_iff_toNat_le, toNat_tailByte hr, toNat_tailByte hl,
    toNat_tailByte h]
  omega

theorem isTail_tailByte {r : Nat} (h : r < 64) : isTail (tailByte r) = true :=
  tailByte_within (Nat.zero_le r) (Nat.le_pred_of_lt h) (by decide : 63 < 64)

private theorem following_two : ∀ k < 32, 2 ≤ k →
    following (0xC0 + k).toUInt8 = some (1, tailByte 0, tailByte 63) := by
  decide

-- Bounds on the second byte leave out overlong forms, surrogates and what lies above the last character.
private theorem following_three : ∀ k < 16, following (0xE0 + k).toUInt8 =
    some (2, tailByte (if k = 0 then 32 else 0), tailByte (if k = 13 then 31 else 63)) := by
  decide

private theorem following_four : ∀ k < 5, following (0xF0 + k).toUInt8 =
    some (3, tailByte (if k = 0 then 16 else 0), tailByte (if k = 4 then 15 else 63)) := by
  decide

theorem toNat_char (c : Char) : c.toNat < 0xD800 ∨ 0xDFFF < c.toNat ∧ c.toNat < 0x110000 := c.valid

theorem toNat_byte {n : Nat} (h : n < 256) : n.toUInt8.toNat = n := by
  simp [Nat.mod_eq_of_lt h]

private theorem not_ascii {n : Nat} (hlow : 0x80 ≤ n) (hhigh : n < 256) : ¬n.toUInt8 < 0x80 := by
  rw [UInt8.lt_iff_toNat_lt, toNat_byte hhigh]
  exact Nat.not_lt.mpr hlow

section Reading

variable {a b c d low high : UInt8}

private theorem decodeFrom_one (ha : a < 0x80) (index : Nat) (rest : List UInt8) :
    decodeFrom index (a :: rest) = (Char.ofNat a.toNat :: ·) <$> decodeFrom (index + 1) rest := by
  conv => lhs; unfold decodeFrom
  rw [if_pos ha]

private theorem decodeFrom_two (ha : ¬a < 0x80) (hfirst : following a = some (1, low, high))
    (hb : (low ≤ b && b ≤ high) = true) (index : Nat) (rest : List UInt8) :
    decodeFrom index (a :: b :: rest) =
      (Char.ofNat (a.toNat % 32 * 64 + tailBits b) :: ·) <$> decodeFrom (index + 2) rest := by
  conv => lhs; unfold decodeFrom
  simp [if_neg ha, hfirst, hb]

private theorem decodeFrom_three (ha : ¬a < 0x80) (hfirst : following a = some (2, low, high))
    (hb : (low ≤ b && b ≤ high) = true) (hc : isTail c = true) (index : Nat) (rest : List UInt8) :
    decodeFrom index (a :: b :: c :: rest) =
      (Char.ofNat (a.toNat % 16 * 4096 + tailBits b * 64 + tailBits c) :: ·) <$>
        decodeFrom (index + 3) rest := by
  conv => lhs; unfold decodeFrom
  simp [if_neg ha, hfirst, hb, hc]

private theorem decodeFrom_four (ha : ¬a < 0x80) (hfirst : following a = some (3, low, high))
    (hb : (low ≤ b && b ≤ high) = true) (hc : isTail c = true) (hd : isTail d = true) (index : Nat)
    (rest : List UInt8) :
    decodeFrom index (a :: b :: c :: d :: rest) =
      (Char.ofNat (a.toNat % 8 * 262144 + tailBits b * 4096 + tailBits c * 64 + tailBits d) :: ·) <$>
        decodeFrom (index + 4) rest := by
  conv => lhs; unfold decodeFrom
  simp [if_neg ha, hfirst, hb, hc, hd]

end Reading

private theorem decodeFrom_encodeChar (c : Char) (index : Nat) (rest : List UInt8) :
    decodeFrom index (encodeChar c ++ rest) =
      (c :: ·) <$> decodeFrom (index + (encodeChar c).length) rest := by
  have hvalid := toNat_char c
  have hchar : Char.ofNat c.toNat = c := Char.ofNat_toNat c
  unfold encodeChar
  generalize c.toNat = n at *
  -- The lead byte has the high bits, and each byte after it six more.
  have hlast : n % 64 < 64 := Nat.mod_lt n (by decide)
  have hmiddle : n / 64 % 64 < 64 := Nat.mod_lt _ (by decide)
  have hupper : n / 4096 % 64 < 64 := Nat.mod_lt _ (by decide)
  dsimp only
  split
  · rename_i hone
    have hbyte : n.toUInt8 < 0x80 := by
      rw [UInt8.lt_iff_toNat_lt, toNat_byte (by omega)]
      exact hone
    refine (decodeFrom_one hbyte index rest).trans ?_
    rw [toNat_byte (by omega), hchar]
    rfl
  split
  · rename_i htwo
    have hlead : 0xC0 + n / 64 < 256 := by omega
    have hbits : (0xC0 + n / 64) % 32 * 64 + n % 64 = n := by omega
    refine (decodeFrom_two (b := tailByte (n % 64)) (not_ascii (by omega) hlead)
      (following_two (n / 64) (by omega) (by omega))
      (tailByte_within (Nat.zero_le _) (by omega) (by decide)) index rest).trans ?_
    rw [toNat_byte hlead, tailBits_tailByte hlast, hbits, hchar]
    rfl
  split
  · rename_i hthree
    have hlead : 0xE0 + n / 4096 < 256 := by omega
    have hbits : (0xE0 + n / 4096) % 16 * 4096 + n / 64 % 64 * 64 + n % 64 = n := by omega
    have hwithin : (tailByte (if n / 4096 = 0 then 32 else 0) ≤ tailByte (n / 64 % 64) &&
        tailByte (n / 64 % 64) ≤ tailByte (if n / 4096 = 13 then 31 else 63)) = true :=
      tailByte_within (by split <;> omega) (by split <;> omega) (by split <;> decide)
    refine (decodeFrom_three (c := tailByte (n % 64)) (not_ascii (by omega) hlead)
      (following_three (n / 4096) (by omega)) hwithin (isTail_tailByte hlast) index rest).trans ?_
    rw [toNat_byte hlead, tailBits_tailByte hmiddle, tailBits_tailByte hlast, hbits, hchar]
    rfl
  · have hlead : 0xF0 + n / 262144 < 256 := by omega
    have hbits : (0xF0 + n / 262144) % 8 * 262144 + n / 4096 % 64 * 4096 + n / 64 % 64 * 64 + n % 64 = n := by
      omega
    have hwithin : (tailByte (if n / 262144 = 0 then 16 else 0) ≤ tailByte (n / 4096 % 64) &&
        tailByte (n / 4096 % 64) ≤ tailByte (if n / 262144 = 4 then 15 else 63)) = true :=
      tailByte_within (by split <;> omega) (by split <;> omega) (by split <;> decide)
    refine (decodeFrom_four (c := tailByte (n / 64 % 64)) (d := tailByte (n % 64))
      (not_ascii (by omega) hlead) (following_four (n / 262144) (by omega)) hwithin
      (isTail_tailByte hmiddle) (isTail_tailByte hlast) index rest).trans ?_
    rw [toNat_byte hlead, tailBits_tailByte hupper, tailBits_tailByte hmiddle, tailBits_tailByte hlast, hbits,
      hchar]
    rfl

theorem encode_cons (c : Char) (cs : List Char) : encode (c :: cs) = encodeChar c ++ encode cs := List.flatMap_cons

private theorem decodeFrom_encode (cs : List Char) (index : Nat) : decodeFrom index (encode cs) = .ok cs := by
  induction cs generalizing index with
  | nil => rfl
  | cons c cs ih =>
    rw [encode_cons, decodeFrom_encodeChar, ih]
    rfl

theorem toString?_ofString (s : String) : toString? (ofString s) = .ok s := by
  rw [toString?, ofString, decode, decodeFrom_encode]
  exact congrArg Except.ok String.ofList_toList

end EntitySql.Text.Utf8
