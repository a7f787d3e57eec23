import EntitySql.Text.SnakeCase
import Mathlib.Data.List.DropRight

namespace EntitySql.Text

variable {c : Char}

theorem isLower_eq_false_of_isUpper (h : isUpper c = true) : isLower c = false := by
  simp only [isUpper, isLower, Bool.and_eq_true, decide_eq_true_eq, Bool.and_eq_false_iff,
    decide_eq_false_iff_not, Char.le_def, UInt32.le_iff_toNat_le] at *
  simp at *
  omega

theorem isDigit_eq_false_of_isUpper (h : isUpper c = true) : isDigit c = false := by
  simp only [isUpper, isDigit, Bool.and_eq_true, decide_eq_true_eq, Bool.and_eq_false_iff,
    decide_eq_false_iff_not, Char.le_def, UInt32.le_iff_toNat_le] at *
  simp at *
  omega

private theorem isUpper_eq_false_of_isLower (h : isLower c = true) : isUpper c = false := by
  cases hupper : isUpper c with
  | false => rfl
  | true => rw [isLower_eq_false_of_isUpper hupper] at h; cases h

private theorem ne_underscore (h : isAlphanumeric c = true) : c ≠ '_' := by
  rintro rfl
  cases h

namespace SnakeCase

/-- Whether a word starts at a character that comes right after another one: at a capital after a lower-case
letter or a digit, and at the last capital in a row if a lower-case letter follows it. -/
def startsWord (c d : Char) (next : Option Char) : Bool :=
  isUpper d && (isLower c || isDigit c || isUpper c && next.any isLower)

/-- The spelling of what follows in a name. The letter or digit before it is `last`, and the flag says that a
separator came after that one. -/
def spell (last : Option Char) (apart : Bool) : List Char → List Char
  | [] => []
  | d :: rest =>
    if isAlphanumeric d then
      match last with
      | none => lower d :: spell (some d) false rest
      | some c =>
        if apart || startsWord c d rest.head? then '_' :: lower d :: spell (some d) false rest
        else lower d :: spell (some d) false rest
    else spell last true rest

/-- A `_` goes between two characters if the second one is a capital that follows a lower-case letter or a
digit or that a lower-case letter follows. -/
def setOff : List Char → List Char
  | c :: d :: rest =>
    if isUpper d && (isLower c || isDigit c || rest.head?.any isLower) then c :: '_' :: setOff (d :: rest)
    else c :: setOff (d :: rest)
  | few => few

private theorem setOffCapitals_cons (h : (isLower c || isDigit c) = false) (cs : List Char) :
    setOffCapitals (c :: cs) = c :: setOffCapitals cs := by
  cases cs with
  | nil => rfl
  | cons d rest => exact if_neg (by simp [h])

/-- A capital that was set off is no lower-case letter or digit, so the next match may begin with it. -/
theorem setOffCapitals_cons_cons (c d : Char) (rest : List Char) :
    setOffCapitals (c :: d :: rest) =
      if (isLower c || isDigit c) && isUpper d then c :: '_' :: setOffCapitals (d :: rest)
      else c :: setOffCapitals (d :: rest) := by
  have hstep : setOffCapitals (c :: d :: rest) =
      if (isLower c || isDigit c) && isUpper d then c :: '_' :: d :: setOffCapitals rest
      else c :: setOffCapitals (d :: rest) := rfl
  rw [hstep]
  split
  · rename_i h
    have hupper : isUpper d = true := (Bool.and_eq_true_iff.mp h).2
    rw [setOffCapitals_cons]
    rw [isLower_eq_false_of_isUpper hupper, isDigit_eq_false_of_isUpper hupper, Bool.or_false]
  · rfl

section

variable {inWord : Bool} {d l : Char} {rest more : List Char}

private theorem setOffWords_within (h : (inWord && isLower c) = true) :
    setOffWords inWord (c :: rest) = c :: setOffWords true rest := by
  match rest with
  | [] => exact if_pos h
  | [_] => exact if_pos h
  | _ :: _ :: _ => exact if_pos h

private theorem setOffWords_few (h : (inWord && isLower c) = false) : setOffWords inWord [c] = [c] :=
  if_neg (by simp [h])

/-- The lower-case letters of a word are passed over, from the first one on. -/
theorem setOffWords_capitalised (h : (inWord && isLower c) = false) (hd : isUpper d = true)
    (hl : isLower l = true) :
    setOffWords inWord (c :: d :: l :: more) = c :: '_' :: d :: setOffWords true (l :: more) := by
  rw [setOffWords_within (c := l) (by rw [hl, Bool.and_true])]
  exact (if_neg (by simp [h])).trans (if_pos (by simp [hd, hl]))

private theorem setOffWords_between (h : (inWord && isLower c) = false)
    (hd : (isUpper d && rest.head?.any isLower) = false) :
    setOffWords inWord (c :: d :: rest) = c :: setOffWords false (d :: rest) := by
  cases rest with
  | nil => exact if_neg (by simp [h])
  | cons l more => exact (if_neg (by simp [h])).trans (if_neg (by simpa using hd))

private theorem head_setOffWords (inWord : Bool) (c : Char) (rest : List Char) :
    ∃ tail, setOffWords inWord (c :: rest) = c :: tail := by
  cases h : inWord && isLower c with
  | true => exact ⟨_, setOffWords_within h⟩
  | false =>
    match rest with
    | [] => exact ⟨_, setOffWords_few h⟩
    | d :: rest =>
      cases hd : isUpper d && rest.head?.any isLower with
      | false => exact ⟨_, setOffWords_between h hd⟩
      | true =>
        obtain ⟨hupper, hnext⟩ := Bool.and_eq_true_iff.mp hd
        match rest with
        | l :: more => exact ⟨_, setOffWords_capitalised h hupper hnext⟩

private theorem setOffCapitals_before (h : setOffCapitals (setOffWords inWord (d :: rest)) = setOff (d :: rest))
    (c : Char) :
    setOffCapitals (c :: setOffWords inWord (d :: rest)) =
      if (isLower c || isDigit c) && isUpper d then c :: '_' :: setOff (d :: rest)
      else c :: setOff (d :: rest) := by
  obtain ⟨tail, htail⟩ := head_setOffWords inWord d rest
  rw [htail] at h ⊢
  rw [setOffCapitals_cons_cons, h]

end

/-- Wherever the passage through the words stands, both passes are the one rule. -/
theorem setOffCapitals_setOffWords (inWord : Bool) :
    ∀ cs : List Char, setOffCapitals (setOffWords inWord cs) = setOff cs
  | [] => rfl
  | [c] => by
    rw [setOffWords.eq_def]
    simp [setOffWords, setOffCapitals, setOff]
  | c :: d :: rest => by
    rw [setOff]
    by_cases hword : (inWord && isLower c) = true
    · have hlower : isLower c = true := (Bool.and_eq_true_iff.mp hword).2
      rw [setOffWords_within hword, setOffCapitals_before (setOffCapitals_setOffWords true (d :: rest))]
      simp [hlower]
    rw [Bool.not_eq_true] at hword
    by_cases hcapital : (isUpper d && rest.head?.any isLower) = true
    · obtain ⟨hupper, hnext⟩ := Bool.and_eq_true_iff.mp hcapital
      match rest with
      | l :: more =>
        have hlower : isLower l = true := hnext
        have hd : (isLower d || isDigit d) = false := by
          rw [isLower_eq_false_of_isUpper hupper, isDigit_eq_false_of_isUpper hupper, Bool.or_false]
        rw [setOffWords_capitalised hword hupper hlower, setOffCapitals_cons_cons,
          setOffCapitals_cons (c := '_') rfl, setOffCapitals_cons hd,
          setOffCapitals_setOffWords true (l :: more)]
        have hl : isUpper l = false := isUpper_eq_false_of_isLower hlower
        have hmark : isUpper '_' = false := rfl
        simp [setOff, hupper, hlower, hl, hmark]
    · rw [Bool.not_eq_true] at hcapital
      rw [setOffWords_between hword hcapital,
        setOffCapitals_before (setOffCapitals_setOffWords false (d :: rest))]
      cases hupper : isUpper d with
      | false => simp
      | true =>
        rw [hupper, Bool.true_and] at hcapital
        simp [hcapital]

/-- What separators make of the rest of a name, if the flag says that one has begun. -/
def separated (apart : Bool) (rest : List Char) : List Char :=
  if apart then '_' :: unifySeparators true rest else unifySeparators false rest

private theorem separated_kept {d : Char} (h : isAlphanumeric d = true) (apart : Bool) (rest : List Char) :
    separated apart (d :: rest) =
      if apart then '_' :: d :: separated false rest else d :: separated false rest := by
  cases apart <;> simp [separated, unifySeparators, h]

private theorem separated_skipped {d : Char} (h : isAlphanumeric d = false) (apart : Bool) (rest : List Char) :
    separated apart (d :: rest) = separated true rest := by
  cases apart <;> simp [separated, unifySeparators, h]

/-- A separator is no lower-case letter, and neither is what it becomes. -/
theorem any_isLower_separated (rest : List Char) :
    (separated false rest).head?.any isLower = rest.head?.any isLower := by
  cases rest with
  | nil => rfl
  | cons d more =>
    cases hd : isAlphanumeric d with
    | true => simp [separated_kept hd]
    | false =>
      have hlower : isLower d = false := by
        simp only [isAlphanumeric, Bool.or_eq_false_iff] at hd
        exact hd.1.1
      have hmark : isLower '_' = false := rfl
      rw [separated_skipped hd]
      simp [separated, hlower, hmark]

/-- A name with everything set off, and with single separators. -/
def marked (cs : List Char) : List Char := collapse false (setOff cs)

private theorem head_setOff (c : Char) (cs : List Char) : ∃ tail, setOff (c :: cs) = c :: tail := by
  rw [setOff.eq_def]
  split
  · rename_i c' d rest heq
    cases heq
    split
    · exact ⟨_, rfl⟩
    · exact ⟨_, rfl⟩
  · exact ⟨_, rfl⟩

/-- No run of separators goes on at a letter or digit. -/
theorem collapse_setOff {d : Char} (h : isAlphanumeric d = true) (inRun : Bool) (rest : List Char) :
    collapse inRun (setOff (d :: rest)) = marked (d :: rest) := by
  obtain ⟨tail, htail⟩ := head_setOff d rest
  rw [marked, htail, collapse, collapse, if_neg (ne_underscore h), if_neg (ne_underscore h)]

private theorem marked_together {c d : Char} (hc : isAlphanumeric c = true) (hd : isAlphanumeric d = true)
    (rest : List Char) :
    marked (c :: d :: rest) =
      if startsWord c d rest.head? then c :: '_' :: marked (d :: rest) else c :: marked (d :: rest) := by
  have hstart : (isUpper d && (isLower c || isDigit c || rest.head?.any isLower)) =
      startsWord c d rest.head? := by
    simp only [isAlphanumeric] at hc
    unfold startsWord
    cases hlower : isLower c with
    | true => simp
    | false =>
      cases hdigit : isDigit c with
      | true => simp
      | false =>
        rw [hlower, hdigit, Bool.false_or, Bool.or_false] at hc
        simp [hc]
  have hnext (inRun : Bool) := collapse_setOff hd inRun rest
  rw [marked, setOff, hstart]
  split
  · simp [collapse, ne_underscore hc, hnext]
  · simp [collapse, ne_underscore hc, hnext]

/-- Where a separator stands, nothing is gained by a capital after it. -/
theorem marked_apart {c d : Char} (hc : isAlphanumeric c = true) (hd : isAlphanumeric d = true)
    (rest : List Char) : marked (c :: '_' :: d :: rest) = c :: '_' :: marked (d :: rest) := by
  have hmark : isUpper '_' = false := rfl
  have hnext (inRun : Bool) := collapse_setOff hd inRun rest
  rw [marked, setOff, hmark, Bool.false_and, if_neg Bool.false_ne_true, setOff]
  split
  · simp [collapse, ne_underscore hc, hnext]
  · simp [collapse, ne_underscore hc, hnext]

private theorem marked_leading {d : Char} (hd : isAlphanumeric d = true) (rest : List Char) :
    marked ('_' :: d :: rest) = '_' :: marked (d :: rest) := by
  have hnext (inRun : Bool) := collapse_setOff hd inRun rest
  rw [marked, setOff]
  split
  · simp [collapse, hnext]
  · simp [collapse, hnext]

private theorem rdropWhile_append {d : Char} (h : isAlphanumeric d = true) (before after : List Char) :
    (before ++ d :: after).rdropWhile (· == '_') = before ++ d :: after.rdropWhile (· == '_') := by
  have hd : (d == '_') = false := beq_eq_false_iff_ne.mpr (ne_underscore h)
  simp only [List.rdropWhile, List.reverse_append, List.reverse_cons, List.append_assoc]
  rw [List.dropWhile_append]
  split
  · rename_i hall
    rw [List.isEmpty_iff] at hall
    simp [hd, hall]
  · simp

/-- Nothing before a letter or digit is trimmed off the end. -/
theorem rdropWhile_marked {d : Char} (h : isAlphanumeric d = true) (before rest : List Char) :
    (before ++ marked (d :: rest)).rdropWhile (· == '_') =
      before ++ (marked (d :: rest)).rdropWhile (· == '_') := by
  obtain ⟨tail, htail⟩ := head_setOff d rest
  have hown : (d :: collapse false tail).rdropWhile (· == '_') = d :: (collapse false tail).rdropWhile (· == '_') :=
    rdropWhile_append h [] _
  rw [marked, htail, collapse, if_neg (ne_underscore h), rdropWhile_append h, hown]

/-- What comes after a letter or digit is spelled out in one pass. -/
theorem lower_marked {c : Char} (hc : isAlphanumeric c = true) (apart : Bool) (rest : List Char) :
    ((marked (c :: separated apart rest)).rdropWhile (· == '_')).map lower =
      lower c :: spell (some c) apart rest := by
  induction rest generalizing c apart with
  | nil =>
    have hmark : isUpper '_' = false := rfl
    have hne : c ≠ '_' := ne_underscore hc
    cases apart with
    | false => simp [separated, unifySeparators, marked, setOff, collapse, spell, List.rdropWhile, hne]
    | true => simp [separated, unifySeparators, marked, setOff, collapse, spell, List.rdropWhile, hne, hmark]
  | cons d more ih =>
    cases hd : isAlphanumeric d with
    | false => rw [separated_skipped hd, ih hc true, spell, if_neg (by simp [hd])]
    | true =>
      have hfront (before : List Char) :
          ((before ++ marked (d :: separated false more)).rdropWhile (· == '_')).map lower =
            before.map lower ++ lower d :: spell (some d) false more := by
        rw [rdropWhile_marked hd, List.map_append, ih hd false]
      rw [separated_kept hd, spell, if_pos hd]
      cases apart with
      | true =>
        rw [if_pos rfl, marked_apart hc hd, Bool.true_or, if_pos rfl]
        exact hfront [c, '_']
      | false =>
        have hstart : startsWord c d (separated false more).head? = startsWord c d more.head? := by
          rw [startsWord, startsWord, any_isLower_separated]
        rw [if_neg Bool.false_ne_true, marked_together hc hd, hstart, Bool.false_or]
        split
        · exact hfront [c, '_']
        · exact hfront [c]

private theorem lower_trim_marked (apart : Bool) (rest : List Char) :
    (trim (· == '_') (marked (separated apart rest))).map lower = spell none apart rest := by
  induction rest generalizing apart with
  | nil => cases apart <;> rfl
  | cons d more ih =>
    cases hd : isAlphanumeric d with
    | false => rw [separated_skipped hd, ih true, spell, if_neg (by simp [hd])]
    | true =>
      have hnext := lower_marked hd false more
      obtain ⟨tail, htail⟩ := head_setOff d (separated false more)
      have hne : (d == '_') = false := beq_eq_false_iff_ne.mpr (ne_underscore hd)
      have hdrop : (marked (d :: separated false more)).dropWhile (· == '_') =
          marked (d :: separated false more) := by
        rw [marked, htail, collapse, if_neg (ne_underscore hd)]
        simp [hne]
      have htrim (cs : List Char) :
          trim (· == '_') cs = (cs.dropWhile (· == '_')).rdropWhile (· == '_') := rfl
      rw [separated_kept hd, spell, if_pos hd, htrim]
      cases apart with
      | true =>
        rw [if_pos rfl, marked_leading hd, List.dropWhile_cons_of_pos rfl, hdrop]
        exact hnext
      | false =>
        rw [if_neg Bool.false_ne_true, hdrop]
        exact hnext

theorem isLower_lower {d : Char} (h : isUpper d = true) : isLower (lower d) = true := by
  have hrange := h
  simp only [isUpper, Bool.and_eq_true, decide_eq_true_eq, Char.le_def, UInt32.le_iff_toNat_le] at hrange
  have hlow : 65 ≤ d.toNat := hrange.1
  have hhigh : d.toNat ≤ 90 := hrange.2
  have hall : ∀ k < 26, isLower (Char.ofNat (65 + k + 32)) = true := by decide
  have hd := hall (d.toNat - 65) (by omega)
  rw [Nat.add_sub_cancel' hlow] at hd
  rwa [lower, if_pos h]

theorem lower_of_not_isUpper {d : Char} (h : isUpper d = false) : lower d = d := by
  rw [lower, h, if_neg Bool.false_ne_true]

/-- The lower-case form of a letter or digit is one of these, too. -/
theorem isAlphanumeric_lower {d : Char} (h : isAlphanumeric d = true) : isAlphanumeric (lower d) = true := by
  cases hupper : isUpper d with
  | false => rwa [lower_of_not_isUpper hupper]
  | true => rw [isAlphanumeric, isLower_lower hupper, Bool.true_or, Bool.true_or]

/-- Besides the marks between words, the letters and digits are spelled out and nothing else is. -/
theorem filter_spell (last : Option Char) (apart : Bool) (cs : List Char) :
    (spell last apart cs).filter (· ≠ '_') = (cs.filter isAlphanumeric).map lower := by
  induction cs generalizing last apart with
  | nil => rfl
  | cons d rest ih =>
    cases hd : isAlphanumeric d with
    | false => simpa [spell, hd] using ih last true
    | true =>
      have hne : lower d ≠ '_' := ne_underscore (isAlphanumeric_lower hd)
      have hrest : (spell (some d) false rest).filter (· ≠ '_') = (rest.filter isAlphanumeric).map lower :=
        ih (some d) false
      cases last with
      | none => simpa [spell, hd, hne] using hrest
      | some c =>
        rw [spell, if_pos hd]
        split
        · simpa [hd, hne] using hrest
        · simpa [hd, hne] using hrest

/-- No mark comes before the first letter or digit. -/
theorem spell_none_of_not_isAlphanumeric {cs : List Char} (h : ∀ c ∈ cs, isAlphanumeric c = false)
    (apart : Bool) : spell none apart cs = [] := by
  induction cs generalizing apart with
  | nil => rfl
  | cons d rest ih =>
    rw [spell, if_neg (by simp [h d List.mem_cons_self])]
    exact ih (fun c hc => h c (List.mem_cons_of_mem d hc)) true

end SnakeCase

open SnakeCase

/-- The four passes, and trimming and lower case after them, are one pass. -/
theorem snakeCase_eq_spell (name : List Char) : snakeCase name = spell none false name := by
  rw [snakeCase, setOffCapitals_setOffWords]
  exact lower_trim_marked false name

/-- Nothing is left of a name without letters and digits. -/
theorem snakeCase_eq_nil_iff {name : List Char} :
    snakeCase name = [] ↔ ∀ c ∈ name, isAlphanumeric c = false := by
  rw [snakeCase_eq_spell]
  refine ⟨fun h => ?_, fun h => spell_none_of_not_isAlphanumeric h false⟩
  have hkept := filter_spell none false name
  rw [h, List.filter_nil, eq_comm, List.map_eq_nil_iff] at hkept
  simpa using hkept

/-- The spelling of any name: its letters and digits in lower case, in their order, with one `_` between two
neighbours if a separator stood between them or a word starts at the second one, and nothing else. -/
theorem toList_snakeCaseName (name : String) :
    (snakeCaseName name).toList = spell none false name.toList ∧
      (snakeCaseName name).toList.filter (· ≠ '_') = (name.toList.filter isAlphanumeric).map lower := by
  have hspell : (snakeCaseName name).toList = spell none false name.toList := by
    rw [snakeCaseName, String.toList_ofList, snakeCase_eq_spell]
  rw [hspell]
  exact ⟨rfl, filter_spell none false name.toList⟩

/-- The match of the first word uses up the letter that the second one follows. -/
example : snakeCase ['A', 'B', 'c', 'D', 'e'] = ['a', '_', 'b', 'c', '_', 'd', 'e'] := by decide +kernel

end EntitySql.Text
