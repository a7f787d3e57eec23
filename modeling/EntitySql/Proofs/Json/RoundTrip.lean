import EntitySql.Proofs.Json.Numeral
import Mathlib.Data.String.Basic

namespace EntitySql.Json

private theorem hexValue?_hexDigit : ∀ d < 16, Text.hexValue? (Text.hexDigit d) = some d := by
  decide

private theorem hex4?_control {n : Nat} (h : n < 0x20) :
    hex4? '0' '0' (Text.hexDigit (n / 16)) (Text.hexDigit (n % 16)) = some n := by
  have hzero : Text.hexValue? '0' = some 0 := by decide
  have hhigh := hexValue?_hexDigit (n / 16) (by omega)
  have hlow := hexValue?_hexDigit (n % 16) (by omega)
  have hvalue : (0 * 16 + 0) * 256 + n / 16 * 16 + n % 16 = n := by omega
  simp only [hex4?, hzero, hhigh, hlow, Option.bind_eq_bind, Option.bind_some, Option.pure_def, hvalue]

private theorem readString_escape {e c : Char} (he : e ≠ 'u') (h : shortEscape? e = some c) (rest : List Char) :
    readString ('\\' :: e :: rest) = (readString rest).map fun (s, after) => (c :: s, after) := by
  rw [readString]
  · rw [h]
  · rintro a b c d rest rfl
    exact absurd rfl he

/-- A character is read back from the way it stands in a string. -/
theorem readString_escapeChar (c : Char) (rest : List Char) :
    readString (escapeChar c ++ rest) = (readString rest).map fun (s, after) => (c :: s, after) := by
  unfold escapeChar
  split
  · subst_vars
    exact readString_escape (by decide) (by decide) rest
  split
  · subst_vars
    exact readString_escape (by decide) (by decide) rest
  split
  · subst_vars
    exact readString_escape (by decide) (by decide) rest
  split
  · subst_vars
    exact readString_escape (by decide) (by decide) rest
  split
  · subst_vars
    exact readString_escape (by decide) (by decide) rest
  split
  · rename_i hbackspace
    have hc : Char.ofNat 0x08 = c := hbackspace ▸ Char.ofNat_toNat c
    exact readString_escape (by decide) (hc ▸ by decide) rest
  split
  · rename_i hfeed
    have hc : Char.ofNat 0x0C = c := hfeed ▸ Char.ofNat_toNat c
    exact readString_escape (by decide) (hc ▸ by decide) rest
  split
  · rename_i hcontrol
    have hlow : (0xDC00 ≤ c.toNat && c.toNat ≤ 0xDFFF) = false := by simp; omega
    have hhigh : (0xD800 ≤ c.toNat && c.toNat ≤ 0xDBFF) = false := by simp; omega
    simp only [List.cons_append, List.nil_append]
    rw [readString, hex4?_control hcontrol]
    simp only [hlow, hhigh, Char.ofNat_toNat, Bool.false_eq_true, if_false]
  · rename_i hquote hbackslash _ _ _ _ _ hprintable
    rw [List.cons_append, List.nil_append, readString]
    · simp [hprintable, hbackslash]
    · exact hquote
    · rintro a b c' d rest' rfl
      exact absurd rfl hbackslash
    · rintro c' rest' rfl
      exact absurd rfl hbackslash

private theorem readString_escaped (cs rest : List Char) :
    readString (cs.flatMap escapeChar ++ '"' :: rest) = some (cs, rest) := by
  induction cs with
  | nil => rfl
  | cons c cs ih =>
    rw [List.flatMap_cons, List.append_assoc, readString_escapeChar, ih]
    rfl

/-- The head of a document's text is no blank, and ends no array or object. -/
def Opens (c : Char) : Prop := isBlank c = false ∧ c ≠ ']' ∧ c ≠ '\x7d'

/-- Documents within so many levels, with whole numbers of 64 bits and objects ordered by name. -/
inductive Shaped : Nat → Json → Prop
  | null {levels : Nat} : Shaped levels null
  | bool {levels : Nat} (b : Bool) : Shaped levels (bool b)
  | whole {levels : Nat} {n : Int} (h : Within64 n) : Shaped levels (number (.whole n))
  | real {levels : Nat} (x : Double) : Shaped levels (number (.real x))
  | string {levels : Nat} (s : String) : Shaped levels (string s)
  | array {levels : Nat} {items : List Json} (h : ∀ item ∈ items, Shaped levels item) :
    Shaped (levels + 1) (array items)
  | object {levels : Nat} {members : List (String × Json)} (hnames : (members.map Prod.fst).Pairwise (· < ·))
    (h : ∀ p ∈ members, Shaped levels p.2) : Shaped (levels + 1) (object members)

mutual

def reals : Json → List Double
  | number (.real x) => [x]
  | array items => realsOfItems items
  | object members => realsOfMembers members
  | null | bool _ | number (.whole _) | string _ => []

def realsOfItems : List Json → List Double
  | [] => []
  | item :: rest => reals item ++ realsOfItems rest

def realsOfMembers : List (String × Json) → List Double
  | [] => []
  | (_, value) :: rest => reals value ++ realsOfMembers rest

end

/-- A real number that is read from its own text. -/
def ReadsBack (x : Double) : Prop := readNumber (realText x) = some (number (.real x), [])

private theorem mem_insertMember {name : String} {v : Json} {p : String × Json} : ∀ {members : List (String × Json)},
    p ∈ insertMember name v members → p = (name, v) ∨ p ∈ members
  | [], h => by simpa [insertMember] using h
  | (m, w) :: rest, h => by
    unfold insertMember at h
    split at h
    · simpa using h
    split at h
    · simp only [List.mem_cons] at h ⊢
      tauto
    · simp only [List.mem_cons] at h ⊢
      rcases h with h | h
      · exact .inr (.inl h)
      · exact (mem_insertMember h).imp_right .inr

private theorem ordered_insertMember {name : String} {v : Json} : ∀ {members : List (String × Json)},
    (members.map Prod.fst).Pairwise (· < ·) → ((insertMember name v members).map Prod.fst).Pairwise (· < ·)
  | [], _ => by simp [insertMember]
  | (m, w) :: rest, h => by
    obtain ⟨hhead, htail⟩ := List.pairwise_cons.mp h
    unfold insertMember
    split
    · rename_i hless
      refine List.pairwise_cons.mpr ⟨fun n hn => ?_, h⟩
      rcases List.mem_cons.mp hn with rfl | hn
      · exact hless
      · exact lt_trans hless (hhead n hn)
    split
    · rename_i heq
      subst heq
      exact h
    · rename_i hless hne
      refine List.pairwise_cons.mpr ⟨fun n hn => ?_, ordered_insertMember htail⟩
      obtain ⟨p, hp, rfl⟩ := List.mem_map.mp hn
      rcases mem_insertMember hp with rfl | hp
      · exact lt_of_le_of_ne (not_lt.mp hless) (Ne.symm hne)
      · exact hhead p.1 (List.mem_map_of_mem hp)

/-- A name after all others goes to the end. -/
theorem insertMember_last {name : String} {v : Json} : ∀ {members : List (String × Json)},
    (∀ n ∈ members.map Prod.fst, n < name) → insertMember name v members = members ++ [(name, v)]
  | [], _ => rfl
  | (m, w) :: rest, h => by
    have hm : m < name := h m (by simp)
    rw [insertMember, if_neg (not_lt_of_gt hm), if_neg (ne_of_gt hm),
      insertMember_last fun n hn => h n (by simp only [List.map_cons]; exact List.mem_cons_of_mem _ hn)]
    rfl

private theorem shaped_of_readNumber {levels : Nat} {cs rest : List Char} {j : Json}
    (h : readNumber cs = some (j, rest)) : Shaped levels j := by
  have hliteral {negative : Bool} {cs : List Char}
      (h : (readLiteral negative cs).bind numbered = some (j, rest)) : Shaped levels j := by
    obtain ⟨⟨l, cs'⟩, -, hnumber⟩ := Option.bind_eq_some_iff.mp h
    obtain ⟨n, hn, hj⟩ := Option.map_eq_some_iff.mp hnumber
    cases hj
    cases n with
    | whole n => exact .whole (within64_of_number? hn)
    | real x => exact .real x
  by_cases hminus : ∃ tail, cs = '-' :: tail
  · obtain ⟨tail, rfl⟩ := hminus
    exact hliteral (readNumber_minus tail ▸ h)
  · exact hliteral (readNumber_of_ne (fun tail heq => hminus ⟨tail, heq⟩) ▸ h)

/-- What is read with so much fuel is in shape. -/
structure ReadsShaped (fuel : Nat) : Prop where
  value {levels : Nat} {cs rest : List Char} {j : Json} :
    readValue levels cs fuel = some (j, rest) → Shaped levels j
  items {levels : Nat} {cs rest : List Char} {items : List Json} :
    readItems levels cs fuel = some (items, rest) → ∀ item ∈ items, Shaped levels item
  members {levels : Nat} {cs rest : List Char} {before members : List (String × Json)} :
    readMembers levels before cs fuel = some (members, rest) →
    (before.map Prod.fst).Pairwise (· < ·) → (∀ p ∈ before, Shaped levels p.2) →
    (members.map Prod.fst).Pairwise (· < ·) ∧ ∀ p ∈ members, Shaped levels p.2

section Step

variable {fuel levels : Nat} {cs rest : List Char} (ih : ReadsShaped fuel)

include ih

private theorem shaped_of_readValue {j : Json} (h : readValue levels cs (fuel + 1) = some (j, rest)) :
    Shaped levels j := by
  rw [readValue] at h
  split at h
  · cases h
    exact .null
  · cases h
    exact .bool true
  · cases h
    exact .bool false
  · obtain ⟨r, -, hr⟩ := Option.map_eq_some_iff.mp h
    cases hr
    exact .string _
  · split at h
    · cases h
    rename_i hlevels
    obtain ⟨inner, rfl⟩ := Nat.exists_eq_succ_of_ne_zero hlevels
    split at h
    · cases h
      exact .array nofun
    · obtain ⟨⟨items, after⟩, hitems, hr⟩ := Option.map_eq_some_iff.mp h
      cases hr
      exact .array (ih.items hitems)
  · split at h
    · cases h
    rename_i hlevels
    obtain ⟨inner, rfl⟩ := Nat.exists_eq_succ_of_ne_zero hlevels
    split at h
    · cases h
      exact .object .nil nofun
    · obtain ⟨⟨members, after⟩, hmembers, hr⟩ := Option.map_eq_some_iff.mp h
      cases hr
      obtain ⟨hnames, hvalues⟩ := ih.members hmembers .nil nofun
      exact .object hnames hvalues
  · exact shaped_of_readNumber h

private theorem shaped_of_readItems {items : List Json} (h : readItems levels cs (fuel + 1) = some (items, rest)) :
    ∀ item ∈ items, Shaped levels item := by
  rw [readItems] at h
  split at h
  · cases h
  rename_i item after hitem
  split at h
  · cases h
    simpa using ih.value hitem
  · obtain ⟨⟨items', after'⟩, hitems, hr⟩ := Option.map_eq_some_iff.mp h
    cases hr
    exact List.forall_mem_cons.mpr ⟨ih.value hitem, ih.items hitems⟩
  · cases h

private theorem shaped_of_readMembers {before members : List (String × Json)}
    (h : readMembers levels before cs (fuel + 1) = some (members, rest))
    (hnames : (before.map Prod.fst).Pairwise (· < ·)) (hvalues : ∀ p ∈ before, Shaped levels p.2) :
    (members.map Prod.fst).Pairwise (· < ·) ∧ ∀ p ∈ members, Shaped levels p.2 := by
  rw [readMembers] at h
  split at h
  swap
  · cases h
  split at h
  · cases h
  rename_i name after hname
  split at h
  swap
  · cases h
  split at h
  · cases h
  rename_i value after' hvalue
  have hordered : ((insertMember (String.ofList name) value before).map Prod.fst).Pairwise (· < ·) :=
    ordered_insertMember hnames
  have hshaped : ∀ p ∈ insertMember (String.ofList name) value before, Shaped levels p.2 := by
    intro p hp
    rcases mem_insertMember hp with rfl | hp
    · exact ih.value hvalue
    · exact hvalues p hp
  split at h
  · cases h
    exact ⟨hordered, hshaped⟩
  · exact ih.members h hordered hshaped
  · cases h

end Step

private theorem readsShaped (fuel : Nat) : ReadsShaped fuel := by
  induction fuel with
  | zero =>
    refine ⟨fun h => ?_, fun h => ?_, fun h => ?_⟩
    · cases h
    · cases h
    · cases h
  | succ fuel ih => exact ⟨shaped_of_readValue ih, shaped_of_readItems ih, shaped_of_readMembers ih⟩

private theorem shaped_of_parse? {s : String} {j : Json} (h : parse? s = some j) : Shaped 127 j := by
  unfold parse? at h
  dsimp only at h
  split at h
  · rename_i j' rest hread
    split at h
    · cases h
      exact (readsShaped _).value hread
    · cases h
  · cases h

private theorem mem_realsOfItems {x : Double} {item : Json} (hx : x ∈ item.reals) : ∀ {items : List Json},
    item ∈ items → x ∈ realsOfItems items
  | _ :: _, h => by
    rw [realsOfItems, List.mem_append]
    rcases List.mem_cons.mp h with rfl | h
    · exact .inl hx
    · exact .inr (mem_realsOfItems hx h)

private theorem mem_realsOfMembers {x : Double} {p : String × Json} (hx : x ∈ p.2.reals) :
    ∀ {members : List (String × Json)}, p ∈ members → x ∈ realsOfMembers members
  | _ :: _, h => by
    rw [realsOfMembers, List.mem_append]
    rcases List.mem_cons.mp h with rfl | h
    · exact .inl hx
    · exact .inr (mem_realsOfMembers hx h)

def Numeric (c : Char) : Prop := c = '-' ∨ ∃ d, digitValue? c = some d

private theorem numeric_of_readNumber {cs : List Char} {r : Json × List Char} (h : readNumber cs = some r) :
    ∃ c tail, cs = c :: tail ∧ Numeric c := by
  cases cs with
  | nil => cases h
  | cons c tail =>
    refine ⟨c, tail, rfl, ?_⟩
    by_cases hminus : c = '-'
    · exact .inl hminus
    rw [readNumber_of_ne (by simp [hminus])] at h
    obtain ⟨l, hliteral, -⟩ := Option.bind_eq_some_iff.mp h
    cases hdigit : digitValue? c with
    | some d => exact .inr ⟨d, hdigit⟩
    | none =>
      rw [readLiteral_eq, readDigits, hdigit] at hliteral
      cases hliteral

private theorem Numeric.ne {c c' : Char} (h : Numeric c) (hminus : c' ≠ '-') (hdigit : digitValue? c' = none) :
    c ≠ c' := by
  rintro rfl
  rcases h with rfl | ⟨d, hd⟩
  · exact hminus rfl
  · rw [hdigit] at hd
    cases hd

private theorem skipBlank_cons {c : Char} (h : isBlank c = false) (cs : List Char) : skipBlank (c :: cs) = c :: cs := by
  rw [skipBlank, List.dropWhile_cons_of_neg (by simp [h])]

private theorem Numeric.opens {c : Char} (h : Numeric c) : Opens c := by
  refine ⟨?_, h.ne (by decide) (by decide), h.ne (by decide) (by decide)⟩
  have hspace : c ≠ ' ' := h.ne (by decide) (by decide)
  have hline : c ≠ '\n' := h.ne (by decide) (by decide)
  have htab : c ≠ '\t' := h.ne (by decide) (by decide)
  have hreturn : c ≠ '\r' := h.ne (by decide) (by decide)
  simp [isBlank, hspace, hline, htab, hreturn]

private theorem readValue_numeric {c : Char} (h : Numeric c) (levels : Nat) (cs : List Char) (fuel : Nat) :
    readValue levels (c :: cs) (fuel + 1) = readNumber (c :: cs) := by
  rw [readValue, skipBlank_cons h.opens.1]
  split
  case h_7 => rfl
  all_goals
    rename_i heq
    exact absurd (List.cons.inj heq).1 (h.ne (by decide) (by decide))

private theorem text_opens {levels : Nat} {j : Json} (h : Shaped levels j) (hreals : ∀ x ∈ j.reals, ReadsBack x) :
    ∃ c tail, text j = c :: tail ∧ Opens c := by
  have hnumeral {cs : List Char} {r : Json × List Char} (hread : readNumber cs = some r) :
      ∃ c tail, cs = c :: tail ∧ Opens c := by
    obtain ⟨c, tail, hcs, hc⟩ := numeric_of_readNumber hread
    exact ⟨c, tail, hcs, hc.opens⟩
  cases h with
  | null => exact ⟨_, _, rfl, by decide, by decide, by decide⟩
  | bool b =>
    cases b with
    | false => exact ⟨_, _, rfl, by decide, by decide, by decide⟩
    | true => exact ⟨_, _, rfl, by decide, by decide, by decide⟩
  | whole h => exact hnumeral (readNumber_wholeText h)
  | real x => exact hnumeral (hreals x (List.mem_singleton_self x))
  | string s => exact ⟨_, _, rfl, by decide, by decide, by decide⟩
  | array h => exact ⟨_, _, rfl, by decide, by decide, by decide⟩
  | object hnames h => exact ⟨_, _, rfl, by decide, by decide, by decide⟩

theorem text_string (s : String) : text (string s) = stringText s := rfl

theorem text_array (items : List Json) : text (array items) = '[' :: itemsText items ++ [']'] := rfl

theorem text_object (members : List (String × Json)) :
    text (object members) = '\x7b' :: membersText members ++ ['\x7d'] := rfl

private theorem itemsText_one (item : Json) : itemsText [item] = text item := rfl

private theorem itemsText_cons (item next : Json) (more : List Json) :
    itemsText (item :: next :: more) = text item ++ ',' :: itemsText (next :: more) := rfl

private theorem membersText_one (name : String) (value : Json) :
    membersText [(name, value)] = stringText name ++ ':' :: text value := rfl

theorem membersText_cons (name : String) (value : Json) (next : String × Json) (more : List (String × Json)) :
    membersText ((name, value) :: next :: more) =
      stringText name ++ ':' :: text value ++ ',' :: membersText (next :: more) := rfl

/-- A document is read from its own text, before anything that could not go on with a numeral. -/
def ReadFrom (levels : Nat) (j : Json) : Prop :=
  ∀ (rest : List Char) (fuel : Nat), Stops rest → 2 * (text j).length ≤ fuel →
    readValue levels (text j ++ rest) fuel = some (j, rest)

private theorem stops_comma (rest : List Char) : Stops (',' :: rest) := stops_cons (by decide) rest

private theorem stops_bracket (rest : List Char) : Stops (']' :: rest) := stops_cons (by decide) rest

private theorem stops_brace (rest : List Char) : Stops ('\x7d' :: rest) := stops_cons (by decide) rest

private theorem readFrom_numeral {levels : Nat} {j : Json} (h : readNumber (text j) = some (j, [])) :
    ReadFrom levels j := by
  intro rest fuel hstop hfuel
  obtain ⟨c, tail, htext, hc⟩ := numeric_of_readNumber h
  rw [htext, List.length_cons] at hfuel
  obtain ⟨fuel, rfl⟩ : ∃ f, fuel = f + 1 := ⟨fuel - 1, by omega⟩
  have hread := readNumber_append hstop h
  rw [htext, List.cons_append] at hread ⊢
  rw [readValue_numeric hc]
  exact hread

private theorem readItems_text {levels : Nat} : ∀ {items : List Json}, items ≠ [] →
    (∀ item ∈ items, ReadFrom levels item) →
    ∀ {rest : List Char} {fuel : Nat}, 2 * (itemsText items).length + 1 ≤ fuel →
      readItems levels (itemsText items ++ ']' :: rest) fuel = some (items, rest)
  | [item], _, h, rest, fuel + 1, hfuel => by
    have hitem := h item (List.mem_singleton_self _) _ _ (stops_bracket rest) (by
      rw [itemsText_one] at hfuel
      omega : 2 * (text item).length ≤ fuel)
    rw [itemsText_one, readItems, hitem]
    rfl
  | item :: next :: more, _, h, rest, fuel + 1, hfuel => by
    rw [itemsText_cons, List.length_append, List.length_cons] at hfuel
    have hitem := h item List.mem_cons_self _ _ (stops_comma (itemsText (next :: more) ++ ']' :: rest))
      (by omega : 2 * (text item).length ≤ fuel)
    have hmore : readItems levels (itemsText (next :: more) ++ ']' :: rest) fuel = some (next :: more, rest) :=
      readItems_text (List.cons_ne_nil next more) (fun i hi => h i (List.mem_cons_of_mem _ hi)) (by omega)
    rw [itemsText_cons, List.append_assoc, List.cons_append, readItems, hitem]
    simp only [skipBlank_cons (by decide : isBlank ',' = false), hmore, Option.map_some]

def afterMember (levels fuel : Nat) (members : List (String × Json)) :
    List Char → Option (List (String × Json) × List Char)
  | '\x7d' :: after => some (members, after)
  | ',' :: rest => readMembers levels members rest fuel
  | _ => none

private theorem readMembers_first {levels fuel : Nat} {name : String} {value : Json} {before : List (String × Json)}
    {c : Char} {tail : List Char} (hnames : ∀ n ∈ before.map Prod.fst, n < name)
    (hvalue : readValue levels (text value ++ c :: tail) fuel = some (value, c :: tail))
    (hc : isBlank c = false) :
    readMembers levels before (stringText name ++ ':' :: (text value ++ c :: tail)) (fuel + 1) =
      afterMember levels fuel (before ++ [(name, value)]) (c :: tail) := by
  have htext : stringText name ++ ':' :: (text value ++ c :: tail) =
      '"' :: (name.toList.flatMap escapeChar ++ '"' :: ':' :: (text value ++ c :: tail)) := by
    simp [stringText]
  rw [htext, readMembers, skipBlank_cons (by decide : isBlank '"' = false)]
  simp only [readString_escaped, skipBlank_cons (by decide : isBlank ':' = false), hvalue, String.ofList_toList,
    insertMember_last hnames, skipBlank_cons hc]
  rfl

private theorem names_last {name : String} {value : Json} {before members : List (String × Json)}
    (h : ((before ++ (name, value) :: members).map Prod.fst).Pairwise (· < ·)) :
    ∀ n ∈ before.map Prod.fst, n < name := by
  intro n hn
  rw [List.map_append, List.pairwise_append] at h
  exact h.2.2 n hn name List.mem_cons_self

private theorem readMembers_text {levels : Nat} : ∀ {members before : List (String × Json)}, members ≠ [] →
    (∀ p ∈ members, ReadFrom levels p.2) → ((before ++ members).map Prod.fst).Pairwise (· < ·) →
    ∀ {rest : List Char} {fuel : Nat}, 2 * (membersText members).length + 1 ≤ fuel →
      readMembers levels before (membersText members ++ '\x7d' :: rest) fuel = some (before ++ members, rest)
  | [(name, value)], before, _, h, hnames, rest, fuel + 1, hfuel => by
    simp only [membersText_one, List.length_append, List.length_cons] at hfuel
    have hvalue := h (name, value) (List.mem_singleton_self _) _ _ (stops_brace rest)
      (by omega : 2 * (text value).length ≤ fuel)
    rw [membersText_one, List.append_assoc, List.cons_append, readMembers_first (names_last hnames) hvalue (by decide)]
    rfl
  | (name, value) :: next :: more, before, _, h, hnames, rest, fuel + 1, hfuel => by
    simp only [membersText_cons, List.length_append, List.length_cons] at hfuel
    have hvalue := h (name, value) List.mem_cons_self _ _ (stops_comma (membersText (next :: more) ++ '\x7d' :: rest))
      (by omega : 2 * (text value).length ≤ fuel)
    have hassoc : before ++ (name, value) :: next :: more = before ++ [(name, value)] ++ next :: more := by simp
    have hmore : readMembers levels (before ++ [(name, value)]) (membersText (next :: more) ++ '\x7d' :: rest) fuel =
        some (before ++ [(name, value)] ++ next :: more, rest) :=
      readMembers_text (List.cons_ne_nil next more) (fun p hp => h p (List.mem_cons_of_mem _ hp)) (hassoc ▸ hnames)
        (by omega)
    have htext : membersText ((name, value) :: next :: more) ++ '\x7d' :: rest =
        stringText name ++ ':' :: (text value ++ ',' :: (membersText (next :: more) ++ '\x7d' :: rest)) := by
      simp [membersText_cons]
    rw [htext, readMembers_first (names_last hnames) hvalue (by decide), hassoc]
    exact hmore

private theorem readValue_string (levels : Nat) (rest : List Char) (fuel : Nat) :
    readValue levels ('"' :: rest) (fuel + 1) =
      (readString rest).map fun (s, after) => (.string (String.ofList s), after) := rfl

private theorem readValue_bracket (levels : Nat) (rest : List Char) (fuel : Nat) :
    readValue (levels + 1) ('[' :: rest) (fuel + 1) =
      match skipBlank rest with
      | ']' :: after => some (.array [], after)
      | rest => (readItems levels rest fuel).map fun (items, after) => (.array items, after) := rfl

private theorem readValue_brace (levels : Nat) (rest : List Char) (fuel : Nat) :
    readValue (levels + 1) ('\x7b' :: rest) (fuel + 1) =
      match skipBlank rest with
      | '\x7d' :: after => some (.object [], after)
      | rest => (readMembers levels [] rest fuel).map fun (members, after) => (.object members, after) := rfl

private theorem readValue_array {c : Char} (hc : Opens c) (levels : Nat) (tail : List Char) (fuel : Nat) :
    readValue (levels + 1) ('[' :: c :: tail) (fuel + 1) =
      (readItems levels (c :: tail) fuel).map fun (items, after) => (.array items, after) := by
  rw [readValue_bracket, skipBlank_cons hc.1]
  split
  · rename_i heq
    exact absurd (List.cons.inj heq).1 hc.2.1
  · rfl

private theorem readValue_object {c : Char} (hc : Opens c) (levels : Nat) (tail : List Char) (fuel : Nat) :
    readValue (levels + 1) ('\x7b' :: c :: tail) (fuel + 1) =
      (readMembers levels [] (c :: tail) fuel).map fun (members, after) => (.object members, after) := by
  rw [readValue_brace, skipBlank_cons hc.1]
  split
  · rename_i heq
    exact absurd (List.cons.inj heq).1 hc.2.2
  · rfl

private theorem readFrom_array {levels : Nat} {items : List Json} (h : ∀ item ∈ items, ReadFrom levels item)
    (hopens : ∀ item ∈ items, ∃ c tail, text item = c :: tail ∧ Opens c) : ReadFrom (levels + 1) (array items) := by
  intro rest fuel hstop hfuel
  have htext : text (array items) ++ rest = '[' :: (itemsText items ++ ']' :: rest) := by simp [text_array]
  simp only [text_array, List.length_append, List.length_cons, List.length_nil] at hfuel
  obtain ⟨fuel, rfl⟩ : ∃ f, fuel = f + 1 := ⟨fuel - 1, by omega⟩
  rw [htext]
  cases items with
  | nil => rfl
  | cons item more =>
    obtain ⟨c, tail, hitem, hc⟩ := hopens item List.mem_cons_self
    obtain ⟨tail', hfirst⟩ : ∃ tail', itemsText (item :: more) ++ ']' :: rest = c :: tail' := by
      cases more with
      | nil => exact ⟨_, by rw [itemsText_one, hitem, List.cons_append]⟩
      | cons next more => exact ⟨_, by rw [itemsText_cons, hitem, List.cons_append, List.cons_append]⟩
    have hread : readItems levels (itemsText (item :: more) ++ ']' :: rest) fuel = some (item :: more, rest) :=
      readItems_text (List.cons_ne_nil item more) h (by omega)
    rw [hfirst] at hread ⊢
    rw [readValue_array hc, hread]
    rfl

private theorem readFrom_object {levels : Nat} {members : List (String × Json)}
    (hnames : (members.map Prod.fst).Pairwise (· < ·)) (h : ∀ p ∈ members, ReadFrom levels p.2) :
    ReadFrom (levels + 1) (object members) := by
  intro rest fuel hstop hfuel
  have htext : text (object members) ++ rest = '\x7b' :: (membersText members ++ '\x7d' :: rest) := by simp [text_object]
  simp only [text_object, List.length_append, List.length_cons, List.length_nil] at hfuel
  obtain ⟨fuel, rfl⟩ : ∃ f, fuel = f + 1 := ⟨fuel - 1, by omega⟩
  rw [htext]
  cases members with
  | nil => rfl
  | cons member more =>
    obtain ⟨name, value⟩ := member
    obtain ⟨tail, hfirst⟩ : ∃ tail, membersText ((name, value) :: more) ++ '\x7d' :: rest = '"' :: tail := by
      cases more with
      | nil => exact ⟨_, by simp only [membersText_one, stringText, List.cons_append]; rfl⟩
      | cons next more => exact ⟨_, by simp only [membersText_cons, stringText, List.cons_append]; rfl⟩
    have hread : readMembers levels [] (membersText ((name, value) :: more) ++ '\x7d' :: rest) fuel =
        some ((name, value) :: more, rest) :=
      readMembers_text (List.cons_ne_nil _ more) h hnames (by omega)
    rw [hfirst] at hread ⊢
    rw [readValue_object ⟨by decide, by decide, by decide⟩, hread]
    rfl

/-- A document in shape is read from its own text, if the real numbers in it are. -/
theorem readFrom_of_shaped {levels : Nat} {j : Json} (h : Shaped levels j) (hreals : ∀ x ∈ j.reals, ReadsBack x) :
    ReadFrom levels j := by
  induction h with
  | null =>
    intro rest fuel hstop hfuel
    have hlength : (text null).length = 4 := rfl
    obtain ⟨fuel, rfl⟩ : ∃ f, fuel = f + 1 := ⟨fuel - 1, by omega⟩
    rfl
  | bool b =>
    intro rest fuel hstop hfuel
    have hlength : 4 ≤ (text (bool b)).length := by cases b <;> decide
    obtain ⟨fuel, rfl⟩ : ∃ f, fuel = f + 1 := ⟨fuel - 1, by omega⟩
    cases b with
    | false => rfl
    | true => rfl
  | @whole _ n h => exact readFrom_numeral (j := number (.whole n)) (readNumber_wholeText h)
  | real x => exact readFrom_numeral (j := number (.real x)) (hreals x (List.mem_singleton_self x))
  | string s =>
    intro rest fuel hstop hfuel
    obtain ⟨fuel, rfl⟩ : ∃ f, fuel = f + 1 := ⟨fuel - 1, by simp [text_string, stringText] at hfuel; omega⟩
    have htext : text (string s) ++ rest = '"' :: (s.toList.flatMap escapeChar ++ '"' :: rest) := by
      simp [text_string, stringText]
    rw [htext, readValue_string]
    simp only [readString_escaped, Option.map_some, String.ofList_toList]
  | array h ih =>
    have hinside {item : Json} (hitem : item ∈ _) : ∀ x ∈ item.reals, ReadsBack x :=
      fun x hx => hreals x (mem_realsOfItems hx hitem)
    exact readFrom_array (fun item hitem => ih item hitem (hinside hitem))
      (fun item hitem => text_opens (h item hitem) (hinside hitem))
  | object hnames h ih =>
    exact readFrom_object hnames fun p hp => ih p hp fun x hx => hreals x (mem_realsOfMembers hx hp)

/-- What the reader gave is read from its own text, if the real numbers in it are. -/
theorem parse?_render {s : String} {j : Json} (h : parse? s = some j) (hreals : ∀ x ∈ j.reals, ReadsBack x) :
    parse? j.render = some j := by
  have hread : readValue 127 (text j ++ []) (2 * (text j).length + 2) = some (j, []) :=
    readFrom_of_shaped (shaped_of_parse? h) hreals [] _ stops_nil (Nat.le_add_right _ 2)
  rw [List.append_nil] at hread
  rw [parse?, render, String.toList_ofList, hread]
  rfl

end EntitySql.Json
