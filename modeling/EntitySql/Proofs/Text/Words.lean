import EntitySql.Proofs.Text.SnakeCase
import EntitySql.Text.Split

namespace EntitySql.Text

open SnakeCase

def isWordCharacter (c : Char) : Bool := isLower c || isDigit c

/-- A run of lower-case letters and digits. -/
structure IsWord (word : List Char) : Prop where
  nonempty : word ≠ []
  characters : ∀ c ∈ word, isWordCharacter c = true

/-- Words with single `_` between them. Without any word the text is empty. -/
def SnakeCased (cs : List Char) : Prop := ∃ words, (∀ word ∈ words, IsWord word) ∧ cs = join ['_'] words

variable {c d : Char} {rest : List Char}

private theorem isUpper_eq_false_of_isWordCharacter (h : isWordCharacter c = true) : isUpper c = false := by
  cases hupper : isUpper c with
  | false => rfl
  | true =>
    rw [isWordCharacter, isLower_eq_false_of_isUpper hupper, isDigit_eq_false_of_isUpper hupper] at h
    cases h

private theorem isAlphanumeric_of_isWordCharacter (h : isWordCharacter c = true) : isAlphanumeric c = true := by
  rw [isAlphanumeric, isUpper_eq_false_of_isWordCharacter h, Bool.or_false]
  exact h

private theorem lower_of_isWordCharacter (h : isWordCharacter c = true) : lower c = c :=
  lower_of_not_isUpper (isUpper_eq_false_of_isWordCharacter h)

private theorem isWordCharacter_lower (h : isAlphanumeric c = true) : isWordCharacter (lower c) = true := by
  cases hupper : isUpper c with
  | false =>
    rw [isAlphanumeric, hupper, Bool.or_false] at h
    rw [lower_of_not_isUpper hupper]
    exact h
  | true => rw [isWordCharacter, isLower_lower hupper, Bool.true_or]

namespace SnakeCase

/-- How a text in snake case goes on after a letter or digit. -/
inductive Continues : List Char → Prop
  | nil : Continues []
  | letter {d : Char} {rest : List Char} (h : isWordCharacter d = true) (hrest : Continues rest) :
      Continues (d :: rest)
  | word {d : Char} {rest : List Char} (h : isWordCharacter d = true) (hrest : Continues rest) :
      Continues ('_' :: d :: rest)

private theorem Continues.append {first : List Char} (h : ∀ c ∈ first, isWordCharacter c = true)
    (hrest : Continues rest) :
    Continues (first ++ rest) := by
  induction first with
  | nil => exact hrest
  | cons c first ih =>
    obtain ⟨hc, hfirst⟩ := List.forall_mem_cons.mp h
    exact .letter hc (ih hfirst)

private theorem continues_words {words : List (List Char)} (h : ∀ word ∈ words, IsWord word) :
    Continues (words.flatMap (['_'] ++ ·)) := by
  induction words with
  | nil => exact .nil
  | cons word words ih =>
    obtain ⟨hword, hwords⟩ := List.forall_mem_cons.mp h
    obtain ⟨c, tail, rfl⟩ := List.exists_cons_of_ne_nil hword.nonempty
    obtain ⟨hc, htail⟩ := List.forall_mem_cons.mp hword.characters
    exact .word hc (.append htail (ih hwords))

/-- The rest of the word, and more words. -/
theorem Continues.exists_words (h : Continues rest) :
    ∃ (first : List Char) (words : List (List Char)), (∀ c ∈ first, isWordCharacter c = true) ∧ (∀ word ∈ words, IsWord word) ∧
      rest = first ++ words.flatMap (['_'] ++ ·) := by
  induction h with
  | nil => exact ⟨[], [], nofun, nofun, rfl⟩
  | @letter d rest hd _ ih =>
    obtain ⟨first, words, hfirst, hwords, rfl⟩ := ih
    exact ⟨d :: first, words, List.forall_mem_cons.mpr ⟨hd, hfirst⟩, hwords, rfl⟩
  | @word d rest hd _ ih =>
    obtain ⟨first, words, hfirst, hwords, rfl⟩ := ih
    have hword : IsWord (d :: first) := ⟨List.cons_ne_nil d first, List.forall_mem_cons.mpr ⟨hd, hfirst⟩⟩
    exact ⟨[], (d :: first) :: words, nofun, List.forall_mem_cons.mpr ⟨hword, hwords⟩, rfl⟩

private theorem snakeCased_nil : SnakeCased [] := ⟨[], nofun, rfl⟩

private theorem snakeCased_cons_iff : SnakeCased (d :: rest) ↔ isWordCharacter d = true ∧ Continues rest := by
  constructor
  · rintro ⟨words, hwords, hjoin⟩
    cases words with
    | nil => cases hjoin
    | cons word words =>
      obtain ⟨hword, hothers⟩ := List.forall_mem_cons.mp hwords
      obtain ⟨c, tail, rfl⟩ := List.exists_cons_of_ne_nil hword.nonempty
      obtain ⟨hc, htail⟩ := List.forall_mem_cons.mp hword.characters
      rw [join_eq_append_flatMap, List.cons_append] at hjoin
      obtain ⟨rfl, rfl⟩ := List.cons.inj hjoin
      exact ⟨hc, .append htail (continues_words hothers)⟩
  · rintro ⟨hd, hrest⟩
    obtain ⟨first, words, hfirst, hwords, rfl⟩ := hrest.exists_words
    have hword : IsWord (d :: first) := ⟨List.cons_ne_nil d first, List.forall_mem_cons.mpr ⟨hd, hfirst⟩⟩
    refine ⟨(d :: first) :: words, List.forall_mem_cons.mpr ⟨hword, hwords⟩, ?_⟩
    rw [join_eq_append_flatMap, List.cons_append]

private theorem continues_spell (c : Char) (apart : Bool) (cs : List Char) : Continues (spell (some c) apart cs) := by
  induction cs generalizing c apart with
  | nil => exact .nil
  | cons d rest ih =>
    cases hd : isAlphanumeric d with
    | false =>
      rw [spell, hd, if_neg Bool.false_ne_true]
      exact ih c true
    | true =>
      rw [spell, if_pos hd]
      split
      · exact .word (isWordCharacter_lower hd) (ih d false)
      · exact .letter (isWordCharacter_lower hd) (ih d false)

private theorem snakeCased_spell (apart : Bool) (cs : List Char) : SnakeCased (spell none apart cs) := by
  induction cs generalizing apart with
  | nil => exact snakeCased_nil
  | cons d rest ih =>
    cases hd : isAlphanumeric d with
    | false =>
      rw [spell, hd, if_neg Bool.false_ne_true]
      exact ih true
    | true =>
      rw [spell, if_pos hd]
      exact snakeCased_cons_iff.mpr ⟨isWordCharacter_lower hd, continues_spell d false rest⟩

/-- No word starts at a lower-case letter or digit by itself. -/
theorem startsWord_eq_false (h : isWordCharacter d = true) (c : Char) (next : Option Char) :
    startsWord c d next = false := by
  rw [startsWord, isUpper_eq_false_of_isWordCharacter h, Bool.false_and]

private theorem Continues.spell_eq (h : Continues rest) (c : Char) : spell (some c) false rest = rest := by
  induction h generalizing c with
  | nil => rfl
  | letter hd _ ih =>
    rw [spell, if_pos (isAlphanumeric_of_isWordCharacter hd)]
    rw [startsWord_eq_false hd, Bool.or_false, if_neg Bool.false_ne_true, lower_of_isWordCharacter hd, ih]
  | word hd _ ih =>
    have hmark : isAlphanumeric '_' = false := rfl
    rw [spell, hmark, if_neg Bool.false_ne_true, spell, if_pos (isAlphanumeric_of_isWordCharacter hd)]
    rw [Bool.true_or, if_pos rfl, lower_of_isWordCharacter hd, ih]

private theorem spell_of_snakeCased {cs : List Char} (h : SnakeCased cs) : spell none false cs = cs := by
  cases cs with
  | nil => rfl
  | cons d rest =>
    obtain ⟨hd, hrest⟩ := snakeCased_cons_iff.mp h
    rw [spell, if_pos (isAlphanumeric_of_isWordCharacter hd)]
    rw [lower_of_isWordCharacter hd, hrest.spell_eq]

end SnakeCase

private theorem snakeCased_snakeCase (name : List Char) : SnakeCased (snakeCase name) := by
  rw [snakeCase_eq_spell]
  exact snakeCased_spell false name

private theorem snakeCase_eq_self_iff {name : List Char} : snakeCase name = name ↔ SnakeCased name := by
  constructor
  · intro h
    rw [← h]
    exact snakeCased_snakeCase name
  · intro h
    rw [snakeCase_eq_spell, spell_of_snakeCased h]

instance (cs : List Char) : Decidable (SnakeCased cs) := decidable_of_iff _ snakeCase_eq_self_iff

/-- A word may begin with a digit, but there is no empty word. -/
example : SnakeCased ['a', '_', '2', 'b'] ∧ ¬SnakeCased ['a', '_', '_', 'b'] ∧ ¬SnakeCased ['a', '_'] := by
  decide +kernel

theorem snakeCased_snakeCaseName (name : String) : SnakeCased (snakeCaseName name).toList := by
  rw [snakeCaseName, String.toList_ofList]
  exact snakeCased_snakeCase name.toList

theorem snakeCaseName_eq_self_iff {name : String} : snakeCaseName name = name ↔ SnakeCased name.toList := by
  rw [← snakeCase_eq_self_iff, snakeCaseName, ← String.toList_inj, String.toList_ofList]

end EntitySql.Text
