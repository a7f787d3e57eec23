import EntitySql.Proofs.Text.Utf8
import EntitySql.Text.Truncate

namespace EntitySql.Text

open Utf8

namespace Utf8

private theorem isTail_lead {n : Nat} (h : n < 0x80 ∨ 0xC0 ≤ n) (hbyte : n < 256) : isTail n.toUInt8 = false := by
  have hlow : (0x80 : UInt8).toNat = 0x80 := rfl
  have hhigh : (0xBF : UInt8).toNat = 0xBF := rfl
  simp only [isTail, Bool.and_eq_false_iff, decide_eq_false_iff_not, UInt8.le_iff_toNat_le, toNat_byte hbyte, hlow,
    hhigh]
  omega

/-- The first byte of a character continues none, and every other byte does. -/
theorem exists_lead (c : Char) :
    ∃ lead tail, encodeChar c = lead :: tail ∧ isTail lead = false ∧ ∀ b ∈ tail, isTail b = true := by
  have hvalid := toNat_char c
  unfold encodeChar
  generalize c.toNat = n at *
  have hlast : isTail (tailByte (n % 64)) = true := isTail_tailByte (Nat.mod_lt n (by decide))
  have hmiddle : isTail (tailByte (n / 64 % 64)) = true := isTail_tailByte (Nat.mod_lt _ (by decide))
  have hupper : isTail (tailByte (n / 4096 % 64)) = true := isTail_tailByte (Nat.mod_lt _ (by decide))
  dsimp only
  split
  · exact ⟨_, [], rfl, isTail_lead (by omega) (by omega), nofun⟩
  split
  · refine ⟨_, [tailByte (n % 64)], rfl, isTail_lead (by omega) (by omega), ?_⟩
    simpa using hlast
  split
  · refine ⟨_, [tailByte (n / 64 % 64), tailByte (n % 64)], rfl, isTail_lead (by omega) (by omega), ?_⟩
    simpa using And.intro hmiddle hlast
  · refine ⟨_, [tailByte (n / 4096 % 64), tailByte (n / 64 % 64), tailByte (n % 64)], rfl,
      isTail_lead (by omega) (by omega), ?_⟩
    simpa using And.intro hupper (And.intro hmiddle hlast)

private theorem length_encodeChar (c : Char) : (encodeChar c).length = c.utf8Size := by
  have hsize : c.utf8Size =
      if c.toNat ≤ 0x7F then 1 else if c.toNat ≤ 0x7FF then 2 else if c.toNat ≤ 0xFFFF then 3 else 4 := rfl
  rw [hsize]
  unfold encodeChar
  generalize c.toNat = n
  dsimp only
  split
  · rw [if_pos (by omega)]
    rfl
  split
  · rw [if_neg (by omega), if_pos (by omega)]
    rfl
  split
  · rw [if_neg (by omega), if_neg (by omega), if_pos (by omega)]
    rfl
  · rw [if_neg (by omega), if_neg (by omega), if_neg (by omega)]
    rfl

private theorem ofString_append (s t : String) : ofString (s ++ t) = ofString s ++ ofString t := by
  rw [ofString, String.toList_append, encode, List.flatMap_append]
  rfl

private theorem length_encode (cs : List Char) : (encode cs).length = (String.ofList cs).utf8ByteSize := by
  induction cs with
  | nil => rfl
  | cons c cs ih =>
    rw [encode_cons, List.length_append, length_encodeChar, ih, String.ofList_cons, String.utf8ByteSize_append,
      String.utf8ByteSize_singleton]

private theorem length_ofString (s : String) : (ofString s).length = s.utf8ByteSize := by
  rw [ofString, length_encode, String.ofList_toList]

end Utf8

private theorem isBoundary_zero (bytes : List UInt8) : isBoundary bytes 0 = true := rfl

private theorem isBoundary_of_getElem? {bytes : List UInt8} {offset : Nat} {b : UInt8} (hpos : offset ≠ 0)
    (h : bytes[offset]? = some b) : isBoundary bytes offset = !isTail b := by
  simp [isBoundary, hpos, h]

/-- Inside of a character there is no boundary. -/
theorem isBoundary_inside {c : Char} {offset : Nat} (hpos : offset ≠ 0) (h : offset < (encodeChar c).length)
    (rest : List UInt8) : isBoundary (encodeChar c ++ rest) offset = false := by
  obtain ⟨lead, tail, hbytes, -, htail⟩ := exists_lead c
  obtain ⟨i, rfl⟩ := Nat.exists_eq_succ_of_ne_zero hpos
  rw [hbytes] at h ⊢
  have hi : i < tail.length := Nat.lt_of_succ_lt_succ h
  have hbyte : (lead :: tail ++ rest)[i + 1]? = some tail[i] := by
    rw [List.cons_append, List.getElem?_cons_succ, List.getElem?_append_left hi, List.getElem?_eq_getElem hi]
  rw [isBoundary_of_getElem? hpos hbyte, htail _ (List.getElem_mem hi)]
  rfl

/-- Behind a character the boundaries are those of what follows it. -/
theorem isBoundary_behind (c : Char) (cs : List Char) (offset : Nat) :
    isBoundary (encodeChar c ++ encode cs) ((encodeChar c).length + offset) = isBoundary (encode cs) offset := by
  obtain ⟨lead, tail, hbytes, -, -⟩ := exists_lead c
  have hlength : 0 < (encodeChar c).length := by
    rw [hbytes]
    exact Nat.succ_pos _
  have hpos : (encodeChar c).length + offset ≠ 0 := by omega
  have hbyte : (encodeChar c ++ encode cs)[(encodeChar c).length + offset]? = (encode cs)[offset]? := by
    rw [List.getElem?_append_right (Nat.le_add_right _ _), Nat.add_sub_cancel_left]
  cases offset with
  | succ i => simp [isBoundary, hbyte]
  | zero =>
    rw [isBoundary_zero]
    cases cs with
    | nil => simp [isBoundary, encode]
    | cons d ds =>
      -- The next character begins here.
      obtain ⟨first, others, hnext, hfirst, -⟩ := exists_lead d
      have hstart : (encode (d :: ds))[0]? = some first := by
        rw [encode_cons, hnext]
        rfl
      rw [isBoundary_of_getElem? hpos (hbyte.trans hstart), hfirst]
      rfl

/-- The boundaries are the lengths of what a text can begin with. -/
theorem isBoundary_encode_iff {cs : List Char} {offset : Nat} :
    isBoundary (encode cs) offset = true ↔ ∃ start rest, cs = start ++ rest ∧ (encode start).length = offset := by
  induction cs generalizing offset with
  | nil => simp [isBoundary, encode, eq_comm]
  | cons c cs ih =>
    constructor
    · intro h
      by_cases hzero : offset = 0
      · exact ⟨[], c :: cs, rfl, hzero.symm⟩
      by_cases hinside : offset < (encodeChar c).length
      · rw [encode_cons, isBoundary_inside hzero hinside] at h
        cases h
      · obtain ⟨k, rfl⟩ := Nat.exists_eq_add_of_le (Nat.le_of_not_lt hinside)
        rw [encode_cons, isBoundary_behind] at h
        obtain ⟨start, rest, rfl, rfl⟩ := ih.mp h
        exact ⟨c :: start, rest, rfl, by rw [encode_cons, List.length_append]⟩
    · rintro ⟨start, rest, hsplit, rfl⟩
      cases start with
      | nil => rfl
      | cons d start =>
        obtain ⟨rfl, rfl⟩ := List.cons.inj hsplit
        rw [encode_cons, encode_cons, List.length_append, isBoundary_behind]
        exact ih.mpr ⟨start, rest, rfl, rfl⟩

private theorem isBoundary_ofString_iff {s : String} {offset : Nat} :
    isBoundary (ofString s) offset = true ↔ ∃ start rest, s = start ++ rest ∧ start.utf8ByteSize = offset := by
  rw [ofString, isBoundary_encode_iff]
  constructor
  · rintro ⟨start, rest, hsplit, hlength⟩
    refine ⟨String.ofList start, String.ofList rest, ?_, by rw [← length_encode, hlength]⟩
    rw [← String.ofList_append, ← hsplit, String.ofList_toList]
  · rintro ⟨start, rest, rfl, hlength⟩
    exact ⟨start.toList, rest.toList, String.toList_append, by rw [← hlength, ← length_ofString, ofString]⟩

theorem isBoundary_boundaryFrom (bytes : List UInt8) (limit : Nat) :
    isBoundary bytes (boundaryFrom bytes limit) = true := by
  induction limit with
  | zero => rfl
  | succ limit ih =>
    rw [boundaryFrom]
    split
    · assumption
    · exact ih

private theorem boundaryFrom_le (bytes : List UInt8) (limit : Nat) : boundaryFrom bytes limit ≤ limit := by
  induction limit with
  | zero => exact Nat.le_refl 0
  | succ limit ih =>
    rw [boundaryFrom]
    split
    · exact Nat.le_refl _
    · exact Nat.le_succ_of_le ih

/-- No boundary within the limit is passed over. -/
theorem le_boundaryFrom {bytes : List UInt8} {offset limit : Nat} (h : isBoundary bytes offset = true)
    (hle : offset ≤ limit) : offset ≤ boundaryFrom bytes limit := by
  induction limit with
  | zero => exact hle
  | succ limit ih =>
    rw [boundaryFrom]
    split
    · exact hle
    · rename_i hlimit
      have hne : offset ≠ limit + 1 := fun heq => hlimit (heq ▸ h)
      exact ih (by omega)

/-- A text is cut between any two parts of it. -/
theorem before?_append (start rest : String) : before? (start ++ rest) start.utf8ByteSize = some start := by
  have hboundary : isBoundary (ofString (start ++ rest)) start.utf8ByteSize = true :=
    isBoundary_ofString_iff.mpr ⟨start, rest, rfl, rfl⟩
  rw [before?, if_pos hboundary, ofString_append, ← length_ofString, List.take_left, toString?_ofString]
  rfl

/-- The longest beginning of a text that has at most a number of bytes. -/
structure LongestWithin (limit : Nat) (s kept : String) : Prop where
  starts : ∃ rest, s = kept ++ rest
  within : kept.utf8ByteSize ≤ limit
  longest : ∀ start rest, s = start ++ rest → start.utf8ByteSize ≤ limit → start.utf8ByteSize ≤ kept.utf8ByteSize

/-- What is left out next to it begins with a character that does not fit, and no character has more than four
bytes. -/
theorem LongestWithin.lt_add_four {limit : Nat} {s kept : String} (h : LongestWithin limit s kept)
    (hlimit : limit < s.utf8ByteSize) : limit < kept.utf8ByteSize + 4 := by
  obtain ⟨rest, rfl⟩ := h.starts
  rcases hrest : rest.toList with _ | ⟨c, others⟩
  · have hempty : rest = "" := String.toList_eq_nil_iff.mp hrest
    rw [hempty, String.append_empty] at hlimit
    exact absurd h.within (Nat.not_le.mpr hlimit)
  · have hsplit : kept ++ rest = (kept ++ String.singleton c) ++ String.ofList others := by
      rw [String.append_assoc, ← String.ofList_cons, ← hrest, String.ofList_toList]
    have hsize : c.utf8Size ≤ 4 := c.utf8Size_le_four
    have hlonger := h.longest _ _ hsplit
    rw [String.utf8ByteSize_append, String.utf8ByteSize_singleton] at hlonger
    have hpos : 0 < c.utf8Size := c.utf8Size_pos
    refine Nat.lt_of_not_le fun hfar => ?_
    have hfits := hlonger (by omega)
    omega

/-- The search finds the end of the longest beginning within the limit, and the text is cut there. -/
theorem exists_longestWithin (limit : Nat) (s : String) :
    ∃ kept, LongestWithin limit s kept ∧ boundaryFrom (ofString s) limit = kept.utf8ByteSize ∧
      before? s (boundaryFrom (ofString s) limit) = some kept := by
  obtain ⟨kept, rest, rfl, hlength⟩ := isBoundary_ofString_iff.mp (isBoundary_boundaryFrom (ofString s) limit)
  have hlongest (start rest' : String) (hsplit : kept ++ rest = start ++ rest')
      (hle : start.utf8ByteSize ≤ limit) : start.utf8ByteSize ≤ kept.utf8ByteSize := by
    have hboundary : isBoundary (ofString (kept ++ rest)) start.utf8ByteSize = true :=
      isBoundary_ofString_iff.mpr ⟨start, rest', hsplit, rfl⟩
    rw [hlength]
    exact le_boundaryFrom hboundary hle
  refine ⟨kept, ⟨⟨rest, rfl⟩, ?_, hlongest⟩, hlength.symm, ?_⟩
  · rw [hlength]
    exact boundaryFrom_le _ limit
  · rw [← hlength]
    exact before?_append kept rest

theorem truncate?_of_le {limit : Nat} {s : String} (h : s.utf8ByteSize ≤ limit) : truncate?
    (some limit) s = some s := by
  rw [truncate?, length_ofString, if_neg (Nat.not_lt.mpr h)]

theorem truncate?_of_lt {limit : Nat} {s kept : String} (h : limit < s.utf8ByteSize)
    (hkept : before? s (boundaryFrom (ofString s) limit) = some kept) :
    truncate? (some limit) s = some (kept ++ "...") := by
  rw [truncate?, length_ofString, if_pos h, hkept]
  rfl

/-- There is no text that cannot be truncated. -/
theorem exists_truncate? (limit : Option Nat) (s : String) : ∃ short, truncate? limit s = some short := by
  cases limit with
  | none => exact ⟨s, rfl⟩
  | some limit =>
    rcases Nat.lt_or_ge limit s.utf8ByteSize with hlt | hle
    · obtain ⟨kept, -, -, hkept⟩ := exists_longestWithin limit s
      exact ⟨_, truncate?_of_lt hlt hkept⟩
    · exact ⟨s, truncate?_of_le hle⟩

end EntitySql.Text
