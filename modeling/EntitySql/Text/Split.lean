namespace EntitySql.Text

/-- The parts between the occurrences of `sep`; a text without any is one part, also if empty. -/
def split (sep : Char) : List Char → List (List Char)
  | [] => [[]]
  | c :: rest =>
    if c = sep then [] :: split sep rest
    else match split sep rest with
      | [] => [[c]]
      | part :: parts => (c :: part) :: parts

def join (sep : List Char) : List (List Char) → List Char
  | [] => []
  | [part] => part
  | part :: next :: parts => part ++ sep ++ join sep (next :: parts)

theorem split_ne_nil (sep : Char) (cs : List Char) : split sep cs ≠ [] := by
  cases cs with
  | nil => simp [split]
  | cons c rest =>
    simp only [split]
    split
    · simp
    · split <;> simp

theorem split_sep_cons (sep : Char) (cs : List Char) : split sep (sep :: cs) = [] :: split sep cs := by
  simp [split]

theorem split_cons_of_ne {sep c : Char} (h : c ≠ sep) {cs part : List Char} {parts : List (List Char)}
    (hs : split sep cs = part :: parts) : split sep (c :: cs) = (c :: part) :: parts := by
  simp [split, h, hs]

theorem join_cons_cons (sep part : List Char) (parts : List (List Char)) (h : parts ≠ []) :
    join sep (part :: parts) = part ++ sep ++ join sep parts := by
  cases parts with
  | nil => exact absurd rfl h
  | cons next parts => rfl

theorem join_eq_append_flatMap (sep part : List Char) : ∀ parts : List (List Char),
    join sep (part :: parts) = part ++ parts.flatMap (sep ++ ·)
  | [] => (List.append_nil part).symm
  | next :: parts => by
    rw [join, join_eq_append_flatMap sep next parts]
    simp

theorem mem_join_of_mem {sep part : List Char} {c : Char} (hc : c ∈ part) {parts : List (List Char)}
    (h : part ∈ parts) : c ∈ join sep parts := by
  cases parts with
  | nil => cases h
  | cons first parts =>
    rw [join_eq_append_flatMap, List.mem_append, List.mem_flatMap]
    rcases List.mem_cons.mp h with rfl | h
    · exact .inl hc
    · exact .inr ⟨part, h, List.mem_append_right sep hc⟩

theorem join_split (sep : Char) (cs : List Char) : join [sep] (split sep cs) = cs := by
  induction cs with
  | nil => rfl
  | cons c rest ih =>
    by_cases h : c = sep
    · subst h
      rw [split_sep_cons, join_cons_cons _ _ _ (split_ne_nil _ _), ih]
      rfl
    · obtain ⟨part, parts, hs⟩ := List.exists_cons_of_ne_nil (split_ne_nil sep rest)
      rw [split_cons_of_ne h hs]
      rw [hs] at ih
      cases parts with
      | nil => simpa [join] using ih
      | cons next parts => simpa [join] using ih

theorem split_of_not_mem {sep : Char} {part : List Char} (h : sep ∉ part) : split sep part = [part] := by
  induction part with
  | nil => rfl
  | cons c part ih =>
    have hne : c ≠ sep := (List.ne_of_not_mem_cons h).symm
    exact split_cons_of_ne hne (ih (List.not_mem_of_not_mem_cons h))

theorem split_append_sep {sep : Char} {part : List Char} (h : sep ∉ part) (cs : List Char) :
    split sep (part ++ sep :: cs) = part :: split sep cs := by
  induction part with
  | nil => exact split_sep_cons sep cs
  | cons c part ih =>
    have hne : c ≠ sep := (List.ne_of_not_mem_cons h).symm
    exact split_cons_of_ne hne (ih (List.not_mem_of_not_mem_cons h))

theorem split_append_of_split {sep : Char} {part cs first : List Char} {others : List (List Char)} (h : sep ∉ part)
    (hs : split sep cs = first :: others) : split sep (part ++ cs) = (part ++ first) :: others := by
  induction part with
  | nil => exact hs
  | cons c part ih =>
    have hne : c ≠ sep := (List.ne_of_not_mem_cons h).symm
    exact split_cons_of_ne hne (ih (List.not_mem_of_not_mem_cons h))

/-- Splitting undoes joining where no part holds the separator. -/
theorem split_join {sep : Char} : ∀ {parts : List (List Char)}, parts ≠ [] →
    (∀ part ∈ parts, sep ∉ part) → split sep (join [sep] parts) = parts
  | [part], _, h => split_of_not_mem (h part (List.mem_singleton_self part))
  | part :: next :: rest, _, h => by
    have hpart : sep ∉ part := h part List.mem_cons_self
    have hrest := split_join (List.cons_ne_nil next rest) fun p hp => h p (List.mem_cons_of_mem part hp)
    rw [join, List.append_assoc, List.singleton_append, split_append_sep hpart, hrest]

theorem not_mem_of_mem_split {sep : Char} {cs part : List Char} (h : part ∈ split sep cs) :
    sep ∉ part := by
  induction cs generalizing part with
  | nil => simp_all [split]
  | cons c rest ih =>
    by_cases hc : c = sep
    · subst hc
      rw [split_sep_cons, List.mem_cons] at h
      rcases h with rfl | h
      · simp
      · exact ih h
    · obtain ⟨first, parts, hs⟩ := List.exists_cons_of_ne_nil (split_ne_nil sep rest)
      rw [split_cons_of_ne hc hs, List.mem_cons] at h
      rcases h with rfl | h
      · have : sep ∉ first := ih (by simp [hs])
        simp [this, Ne.symm hc]
      · exact ih (by simp [hs, h])

theorem split_eq_pair_iff {sep : Char} {cs left right : List Char} :
    split sep cs = [left, right] ↔ cs = left ++ sep :: right ∧ sep ∉ left ∧ sep ∉ right := by
  constructor
  · intro h
    have hjoin := join_split sep cs
    rw [h] at hjoin
    exact ⟨by simpa [join] using hjoin.symm, not_mem_of_mem_split (h ▸ List.mem_cons_self),
      not_mem_of_mem_split (h ▸ List.mem_cons_of_mem _ List.mem_cons_self)⟩
  · rintro ⟨rfl, hleft, hright⟩
    rw [split_append_sep hleft, split_of_not_mem hright]

end EntitySql.Text
