import EntitySql.Model.Tag
import EntitySql.Proofs.Text.Trimming
import Mathlib.Data.List.Nodup

namespace EntitySql

namespace Tag

open Text

/-- One `=`, and what stands before and behind it comes down to a key and a value, neither of them empty. -/
def IsPair (segment : List Char) (key value : String) : Prop :=
  key ≠ "" ∧ value ≠ "" ∧ ∃ left right, segment = left ++ '=' :: right ∧ '=' ∉ left ∧ '=' ∉ right ∧
    TrimsTo isBlank left key.toList ∧ TrimsTo isBlank right value.toList

def WellFormed (segment : List Char) : Prop := ∃ key value, IsPair segment key value

def Gives (segments : List (List Char)) (key value : String) : Prop :=
  ∃ before segment after, segments = before ++ segment :: after ∧ IsPair segment key value ∧
    ∀ later ∈ after, ∀ other, ¬IsPair later key other

def insertAll (tag : Tag) (pairs : List (String × String)) : Tag :=
  pairs.foldl (fun tag p => tag.insert p.1 p.2) tag

def keys (tag : Tag) : List String := tag.map Prod.fst

variable {segment : List Char} {segments before after : List (List Char)} {key value : String}

/-- A text between one `=` and another end, read as a key or a value. -/
theorem ofList_trim_eq_iff {cs : List Char} {s : String} :
    String.ofList (trim isBlank cs) = s ↔ TrimsTo isBlank cs s.toList := by
  rw [← trim_eq_iff]
  constructor
  · rintro rfl
    exact String.toList_ofList.symm
  · intro h
    rw [h, String.ofList_toList]

private theorem pair?_eq_some_iff : pair? segment = some (key, value) ↔ IsPair segment key value := by
  unfold pair?
  constructor
  · intro h
    split at h
    · rename_i left right hsplit
      obtain ⟨hsegment, hleft, hright⟩ := split_eq_pair_iff.mp hsplit
      dsimp only at h
      split at h
      · cases h
      · rename_i hempty
        simp only [Bool.or_eq_true, List.isEmpty_iff, not_or] at hempty
        simp only [Option.some.injEq, Prod.mk.injEq] at h
        obtain ⟨rfl, rfl⟩ := h
        exact ⟨by simpa using hempty.1, by simpa using hempty.2, left, right, hsegment, hleft, hright,
          ofList_trim_eq_iff.mp rfl, ofList_trim_eq_iff.mp rfl⟩
    · cases h
  · rintro ⟨hkey, hvalue, left, right, hsegment, hleft, hright, hbefore, hbehind⟩
    rw [split_eq_pair_iff.mpr ⟨hsegment, hleft, hright⟩]
    dsimp only
    rw [trim_of_trimsTo hbefore, trim_of_trimsTo hbehind]
    simp [hkey, hvalue]

private theorem wellFormed_iff : WellFormed segment ↔ (pair? segment).isSome = true := by
  simp only [WellFormed, ← pair?_eq_some_iff, Option.isSome_iff_exists, Prod.exists]

/-- Either all segments are pairs, or there is a first one that is not. -/
theorem wellFormed_or_first (segments : List (List Char)) :
    (∀ segment ∈ segments, WellFormed segment) ∨ ∃ before segment after,
      segments = before ++ segment :: after ∧ (∀ s ∈ before, WellFormed s) ∧ ¬WellFormed segment := by
  cases hfind : segments.find? fun s => (pair? s).isNone with
  | none =>
    refine .inl fun segment hmem => wellFormed_iff.mpr (Option.isSome_iff_ne_none.mpr fun hnone => ?_)
    exact List.find?_eq_none.mp hfind segment hmem (Option.isNone_iff_eq_none.mpr hnone)
  | some segment =>
    obtain ⟨hbad, before, after, hsplit, hbefore⟩ := List.find?_eq_some_iff_append.mp hfind
    refine .inr ⟨before, segment, after, hsplit, fun s hs => wellFormed_iff.mpr ?_, ?_⟩
    · rw [← Option.not_isNone]
      exact hbefore s hs
    · rw [wellFormed_iff]
      simpa using hbad

private theorem ofSegments_wellFormed (h : ∀ segment ∈ segments, WellFormed segment) (tag : Tag) :
    ofSegments tag segments = .ok (tag.insertAll (segments.filterMap pair?)) := by
  induction segments generalizing tag with
  | nil => rfl
  | cons segment rest ih =>
    obtain ⟨key, value, hpair⟩ := h segment List.mem_cons_self
    have hpair : pair? segment = some (key, value) := pair?_eq_some_iff.mpr hpair
    rw [ofSegments, hpair, List.filterMap_cons_some hpair]
    exact ih (fun s hs => h s (List.mem_cons_of_mem _ hs)) _

private theorem ofSegments_malformed (hbefore : ∀ s ∈ before, WellFormed s) (hsegment : ¬WellFormed segment)
    (tag : Tag) :
    ofSegments tag (before ++ segment :: after) = .error (.invalidTag (String.ofList segment)) := by
  induction before generalizing tag with
  | nil =>
    have hnone : pair? segment = none := by simpa [wellFormed_iff] using hsegment
    rw [List.nil_append, ofSegments, hnone]
  | cons first rest ih =>
    obtain ⟨key, value, hpair⟩ := hbefore first List.mem_cons_self
    rw [List.cons_append, ofSegments, pair?_eq_some_iff.mpr hpair]
    exact ih (fun s hs => hbefore s (List.mem_cons_of_mem _ hs)) _

/-- What a key is given is never empty. -/
theorem Gives.ne_empty (h : Gives segments key value) : value ≠ "" := by
  obtain ⟨_, _, _, _, hpair, -⟩ := h
  exact hpair.2.1

private theorem keys_insert (tag : Tag) (key value : String) :
    (tag.insert key value).keys = if key ∈ tag.keys then tag.keys else tag.keys ++ [key] := by
  induction tag with
  | nil => rfl
  | cons p rest ih =>
    obtain ⟨k, v⟩ := p
    by_cases hk : k = key
    · simp [insert, keys, hk]
    · have hk' : key ≠ k := fun h => hk h.symm
      have hkeys : (insert key value ((k, v) :: rest)).keys = k :: (insert key value rest).keys := by
        simp [insert, keys, hk]
      have hmem : key ∈ keys ((k, v) :: rest) ↔ key ∈ keys rest := by simp [keys, hk']
      rw [hkeys, ih]
      by_cases hkey : key ∈ keys rest
      · rw [if_pos hkey, if_pos (hmem.mpr hkey)]
        rfl
      · rw [if_neg hkey, if_neg (hmem.not.mpr hkey)]
        rfl

private theorem nodup_keys_insert {tag : Tag} (h : tag.keys.Nodup) (key value : String) :
    (tag.insert key value).keys.Nodup := by
  rw [keys_insert]
  split
  · exact h
  · rename_i hkey
    simpa using List.Nodup.concat hkey h

private theorem nodup_keys_insertAll (pairs : List (String × String)) {tag : Tag} (h : tag.keys.Nodup) :
    (tag.insertAll pairs).keys.Nodup := by
  induction pairs generalizing tag with
  | nil => exact h
  | cons p rest ih => exact ih (nodup_keys_insert h p.1 p.2)

private theorem get?_insertAll (pairs : List (String × String)) (tag : Tag) (key : String) :
    (tag.insertAll pairs).get? key = (pairs.reverse.lookup key).or (tag.get? key) := by
  induction pairs generalizing tag with
  | nil => rfl
  | cons p rest ih =>
    obtain ⟨k, v⟩ := p
    have hstep : tag.insertAll ((k, v) :: rest) = (tag.insert k v).insertAll rest := rfl
    rw [hstep, ih, get?_insert, List.reverse_cons, List.lookup_append, Option.or_assoc]
    by_cases hkey : key = k
    · simp [hkey]
    · have hb : (key == k) = false := by simpa using hkey
      simp [List.lookup_cons, hkey, hb]

private theorem lookup_reverse_iff {pairs : List (String × String)} :
    pairs.reverse.lookup key = some value ↔
      ∃ before after, pairs = before ++ (key, value) :: after ∧ ∀ p ∈ after, p.1 ≠ key := by
  rw [List.lookup_eq_some_iff]
  constructor
  · rintro ⟨after, before, hpairs, hafter⟩
    refine ⟨before.reverse, after.reverse, by simpa using congrArg List.reverse hpairs, fun p hp heq => ?_⟩
    simpa [heq] using hafter p (List.mem_reverse.mp hp)
  · rintro ⟨before, after, rfl, hafter⟩
    refine ⟨after.reverse, before.reverse, by simp, fun p hp => ?_⟩
    simpa using Ne.symm (hafter p (List.mem_reverse.mp hp))

private theorem lookup_filterMap_iff (segments : List (List Char)) :
    (segments.filterMap pair?).reverse.lookup key = some value ↔ Gives segments key value := by
  rw [lookup_reverse_iff]
  constructor
  · rintro ⟨pairsBefore, pairsAfter, hpairs, hafter⟩
    obtain ⟨before, rest, rfl, -, hrest⟩ := List.filterMap_eq_append_iff.mp hpairs
    obtain ⟨skipped, segment, after, rfl, hskipped, hpair, hlater⟩ := List.filterMap_eq_cons_iff.mp hrest
    refine ⟨before ++ skipped, segment, after, by simp, pair?_eq_some_iff.mp hpair, fun later hmem other h => ?_⟩
    refine hafter (key, other) ?_ rfl
    rw [← hlater]
    exact List.mem_filterMap.mpr ⟨later, hmem, pair?_eq_some_iff.mpr h⟩
  · rintro ⟨before, segment, after, rfl, hpair, hlater⟩
    refine ⟨before.filterMap pair?, after.filterMap pair?, ?_, fun p hp heq => ?_⟩
    · rw [List.filterMap_append, List.filterMap_cons_some (pair?_eq_some_iff.mpr hpair)]
    · obtain ⟨later, hmem, hp⟩ := List.mem_filterMap.mp hp
      obtain ⟨k, v⟩ := p
      obtain rfl : k = key := heq
      exact hlater later hmem v (pair?_eq_some_iff.mp hp)

/-- A key of a pair has a value. -/
theorem exists_gives (hmem : segment ∈ segments)
    (h : IsPair segment key value) : ∃ last, Gives segments key last := by
  have hpair : (key, value) ∈ (segments.filterMap pair?).reverse :=
    List.mem_reverse.mpr (List.mem_filterMap.mpr ⟨segment, hmem, pair?_eq_some_iff.mpr h⟩)
  cases hlast : (segments.filterMap pair?).reverse.lookup key with
  | none => simpa using List.lookup_eq_none_iff.mp hlast _ hpair
  | some last => exact ⟨last, (lookup_filterMap_iff segments).mp hlast⟩

section

variable {text : String} {tag : Tag}

private theorem parse_wellFormed (h : ∀ segment ∈ split ',' text.toList, WellFormed segment) :
    parse text = .ok (insertAll [] ((split ',' text.toList).filterMap pair?)) :=
  ofSegments_wellFormed h []

private theorem parse_malformed (hsplit : split ',' text.toList = before ++ segment :: after)
    (hbefore : ∀ s ∈ before, WellFormed s) (hsegment : ¬WellFormed segment) :
    parse text = .error (.invalidTag (String.ofList segment)) := by
  rw [parse, hsplit]
  exact ofSegments_malformed hbefore hsegment []

theorem parse_ok_iff : (∃ tag, parse text = .ok tag) ↔ ∀ segment ∈ split ',' text.toList, WellFormed segment := by
  refine ⟨fun ⟨tag, htag⟩ => ?_, fun h => ⟨_, parse_wellFormed h⟩⟩
  rcases wellFormed_or_first (split ',' text.toList) with hall | ⟨before, segment, after, hsplit, hbefore, hsegment⟩
  · exact hall
  · cases (parse_malformed hsplit hbefore hsegment).symm.trans htag

private theorem parse_error_iff {e : Error} : parse text = .error e ↔ ∃ before segment after,
    split ',' text.toList = before ++ segment :: after ∧ (∀ s ∈ before, WellFormed s) ∧ ¬WellFormed segment ∧
      e = .invalidTag (String.ofList segment) := by
  constructor
  · intro he
    rcases wellFormed_or_first (split ',' text.toList) with hall | ⟨before, segment, after, hsplit, hbefore, hsegment⟩
    · cases (parse_wellFormed hall).symm.trans he
    · cases (parse_malformed hsplit hbefore hsegment).symm.trans he
      exact ⟨before, segment, after, hsplit, hbefore, hsegment, rfl⟩
  · rintro ⟨before, segment, after, hsplit, hbefore, hsegment, rfl⟩
    exact parse_malformed hsplit hbefore hsegment

private theorem eq_insertAll_of_parse (h : parse text = .ok tag) :
    tag = insertAll [] ((split ',' text.toList).filterMap pair?) := by
  cases (parse_wellFormed (parse_ok_iff.mp ⟨tag, h⟩)).symm.trans h
  rfl

private theorem nodup_keys_parse (h : parse text = .ok tag) : tag.keys.Nodup :=
  eq_insertAll_of_parse h ▸ nodup_keys_insertAll _ List.nodup_nil

theorem get?_parse (h : parse text = .ok tag) :
    tag.get? key = some value ↔ Gives (split ',' text.toList) key value := by
  have hnone : Tag.get? [] key = none := rfl
  rw [eq_insertAll_of_parse h, get?_insertAll, hnone, Option.or_none, lookup_filterMap_iff]

end

/-- A key or a value that can be written: it is not empty, has no blanks at its ends and none of the marks. -/
structure Plain (s : String) : Prop where
  ne_empty : s ≠ ""
  trimmed : Trimmed isBlank s.toList
  comma : ',' ∉ s.toList
  equals : '=' ∉ s.toList

instance (s : String) : Decidable (Plain s) :=
  decidable_of_iff (s ≠ "" ∧ Trimmed isBlank s.toList ∧ ',' ∉ s.toList ∧ '=' ∉ s.toList)
    ⟨fun ⟨h₁, h₂, h₃, h₄⟩ => ⟨h₁, h₂, h₃, h₄⟩, fun h => ⟨h.ne_empty, h.trimmed, h.comma, h.equals⟩⟩

/-- A pair as it may be written, with blanks around its key and its value. -/
structure WrittenPair where
  key : String
  value : String
  beforeKey : List Char
  afterKey : List Char
  beforeValue : List Char
  afterValue : List Char
  plainKey : Plain key
  plainValue : Plain value
  blank : ∀ c ∈ beforeKey ++ afterKey ++ beforeValue ++ afterValue, isBlank c = true

namespace WrittenPair

def left (p : WrittenPair) : List Char := p.beforeKey ++ p.key.toList ++ p.afterKey

def right (p : WrittenPair) : List Char := p.beforeValue ++ p.value.toList ++ p.afterValue

def text (p : WrittenPair) : List Char := p.left ++ '=' :: p.right

def join (pairs : List WrittenPair) : String := String.ofList (Text.join [','] (pairs.map text))

variable (p : WrittenPair)

private theorem trimsTo_left : TrimsTo isBlank p.left p.key.toList :=
  ⟨p.plainKey.trimmed, p.beforeKey, p.afterKey, rfl, fun c hc => p.blank c (by simp [hc]),
    fun c hc => p.blank c (by simp [hc])⟩

private theorem trimsTo_right : TrimsTo isBlank p.right p.value.toList :=
  ⟨p.plainValue.trimmed, p.beforeValue, p.afterValue, rfl, fun c hc => p.blank c (by simp [hc]),
    fun c hc => p.blank c (by simp [hc])⟩

/-- A mark is neither a blank nor part of a key or a value. -/
theorem not_mem_sides {c : Char} (hblank : isBlank c = false) (hkey : c ∉ p.key.toList)
    (hvalue : c ∉ p.value.toList) : c ∉ p.left ∧ c ∉ p.right := by
  have hmargin : c ∉ p.beforeKey ++ p.afterKey ++ p.beforeValue ++ p.afterValue := by
    intro hc
    rw [p.blank c hc] at hblank
    cases hblank
  simp only [List.mem_append, not_or] at hmargin
  obtain ⟨⟨⟨h₁, h₂⟩, h₃⟩, h₄⟩ := hmargin
  exact ⟨by simp only [left, List.mem_append, not_or]; exact ⟨⟨h₁, hkey⟩, h₂⟩,
    by simp only [right, List.mem_append, not_or]; exact ⟨⟨h₃, hvalue⟩, h₄⟩⟩

private theorem isPair_text : IsPair p.text p.key p.value :=
  have hequals := p.not_mem_sides (c := '=') rfl p.plainKey.equals p.plainValue.equals
  ⟨p.plainKey.ne_empty, p.plainValue.ne_empty, p.left, p.right, rfl, hequals.1, hequals.2, p.trimsTo_left,
    p.trimsTo_right⟩

private theorem not_mem_text : ',' ∉ p.text := by
  obtain ⟨hleft, hright⟩ := p.not_mem_sides (c := ',') rfl p.plainKey.comma p.plainValue.comma
  have hmark : ',' ≠ '=' := by decide
  simp [text, hleft, hright, hmark]

end WrittenPair

/-- Pairs that are written down are read back. -/
theorem parse_join {pairs : List WrittenPair} (h : pairs ≠ []) :
    parse (WrittenPair.join pairs) = .ok (insertAll [] (pairs.map fun p => (p.key, p.value))) := by
  have hsplit : split ',' (WrittenPair.join pairs).toList = pairs.map WrittenPair.text := by
    rw [WrittenPair.join, String.toList_ofList]
    refine split_join (by simpa using h) fun segment hsegment => ?_
    obtain ⟨p, -, rfl⟩ := List.mem_map.mp hsegment
    exact p.not_mem_text
  have hpairs : (pairs.map WrittenPair.text).filterMap pair? = pairs.map fun p => (p.key, p.value) := by
    have hread : pair? ∘ WrittenPair.text = fun p => some (p.key, p.value) :=
      funext fun p => pair?_eq_some_iff.mpr p.isPair_text
    rw [List.filterMap_map, hread, List.filterMap_eq_map']
  rw [parse, hsplit, ofSegments_wellFormed, hpairs]
  intro segment hsegment
  obtain ⟨p, -, rfl⟩ := List.mem_map.mp hsegment
  exact ⟨p.key, p.value, p.isPair_text⟩

/-- A text is a tag if and only if its segments are pairs, and the last pair of a key holds; otherwise the
first segment that is no pair is reported. So pairs that are written down, with any blanks, are read back. -/
theorem parse_exact :
    (∀ text : String,
      let segments := Text.split ',' text.toList
      (Text.join [','] segments = text.toList ∧ ∀ segment ∈ segments, ',' ∉ segment) ∧
        ((∃ tag, parse text = .ok tag) ↔ ∀ segment ∈ segments, WellFormed segment) ∧
        (∀ tag, parse text = .ok tag →
          tag.keys.Nodup ∧ ∀ key value, tag.get? key = some value ↔ Gives segments key value) ∧
        ∀ e, parse text = .error e ↔ ∃ before segment after, segments = before ++ segment :: after ∧
          (∀ s ∈ before, WellFormed s) ∧ ¬WellFormed segment ∧ e = .invalidTag (String.ofList segment)) ∧
      ∀ pairs : List WrittenPair, pairs ≠ [] → ∃ tag, parse (WrittenPair.join pairs) = .ok tag ∧
        ∀ key, tag.get? key = (pairs.map fun p => (p.key, p.value)).reverse.lookup key := by
  refine ⟨fun text => ⟨⟨join_split ',' _, fun _ => not_mem_of_mem_split⟩, parse_ok_iff,
    fun tag htag => ⟨nodup_keys_parse htag, fun key value => ?_⟩, fun e => parse_error_iff⟩,
    fun pairs h => ⟨_, parse_join h, fun key => ?_⟩⟩
  · exact get?_parse htag
  · rw [get?_insertAll]
    exact Option.or_none

/-- Of two pairs of one key the last holds, and the blanks around it do not count. -/
theorem parse_exact_repeated :
    let first : WrittenPair := ⟨"column", "nick", [' '], [], [], ['\t'], by decide, by decide, by simp [isBlank]⟩
    let last : WrittenPair := ⟨"column", "name", [], [' '], [' '], [], by decide, by decide, by simp [isBlank]⟩
    [first, last] ≠ [] ∧ WrittenPair.join [first, last] = " column=nick\t,column = name" ∧
      ∃ tag, parse " column=nick\t,column = name" = .ok tag ∧ tag.get? "column" = some "name" := by
  intro first last
  have hjoin : WrittenPair.join [first, last] = " column=nick\t,column = name" := by decide +kernel
  obtain ⟨tag, htag, hget⟩ := parse_exact.2 [first, last] (List.cons_ne_nil _ _)
  rw [hjoin] at htag
  exact ⟨List.cons_ne_nil _ _, hjoin, tag, htag, by simp [hget, first, last]⟩

end Tag

end EntitySql
