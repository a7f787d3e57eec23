import EntitySql.Model.Registry
import EntitySql.Proofs.Sql.Composition

namespace EntitySql

namespace Identifier

def doubled (q : Char) : List Char → List Char
  | [] => []
  | c :: rest => if c = q then q :: q :: doubled q rest else c :: doubled q rest

/-- A segment between quotes, with every quote in it doubled. -/
def delimited (q : Char) (cs : List Char) : List Char := q :: doubled q cs ++ [q]

/-- Where a reader stands, with the characters of the segment at hand. -/
inductive Place where
  | inside (cs : List Char)
  /-- Behind a quote, which ends the segment unless another one follows. -/
  | quote (cs : List Char)
  /-- Behind a point, which joins on another segment if a quote follows. -/
  | point (cs : List Char)

/-- The segments of an identifier, after those read before, and the text behind it. -/
def read (q : Char) : List (List Char) → Place → List Char → Option (List (List Char) × List Char)
  | _, .inside _, [] => none
  | parts, .inside cs, c :: rest =>
    if c = q then read q parts (.quote cs) rest else read q parts (.inside (cs ++ [c])) rest
  | parts, .quote cs, [] => some (parts ++ [cs], [])
  | parts, .quote cs, c :: rest =>
    if c = q then read q parts (.inside (cs ++ [q])) rest
    else if c = '.' then read q parts (.point cs) rest
    else some (parts ++ [cs], c :: rest)
  | parts, .point cs, [] => some (parts ++ [cs], ['.'])
  | parts, .point cs, c :: rest =>
    if c = q then read q (parts ++ [cs]) (.inside []) rest else some (parts ++ [cs], '.' :: c :: rest)

/-- The segments of the identifier that a text begins with, and the text behind it. -/
def read? (q : Char) : List Char → Option (List (List Char) × List Char)
  | [] => none
  | c :: rest => if c = q then read q [] (.inside []) rest else none

/-- Whether a text goes on with an identifier right before it. -/
def goesOn (q : Char) : List Char → Bool
  | [] => false
  | c :: rest => c == q || c == '.' && rest.head? == some q

variable {q : Char}

private theorem doubled_append (cs ds : List Char) : doubled q (cs ++ ds) = doubled q cs ++ doubled q ds := by
  induction cs with
  | nil => rfl
  | cons c cs ih =>
    rw [List.cons_append, doubled, doubled, ih]
    split <;> rfl

private theorem doubled_of_not_mem {cs : List Char} (h : q ∉ cs) : doubled q cs = cs := by
  induction cs with
  | nil => rfl
  | cons c cs ih =>
    have hne : c ≠ q := (List.ne_of_not_mem_cons h).symm
    rw [doubled, if_neg hne, ih (List.not_mem_of_not_mem_cons h)]

private theorem count_doubled (cs : List Char) : (doubled q cs).count q = 2 * cs.count q := by
  induction cs with
  | nil => rfl
  | cons c cs ih =>
    rw [doubled]
    split
    · rename_i hc
      subst hc
      simp only [List.count_cons_self, ih]
      omega
    · rename_i hc
      simp only [List.count_cons_of_ne (a := q) hc, ih]

private theorem read_doubled (parts : List (List Char)) (cs acc rest : List Char) :
    read q parts (.inside acc) (doubled q cs ++ q :: rest) = read q parts (.quote (acc ++ cs)) rest := by
  induction cs generalizing acc with
  | nil => simp [doubled, read]
  | cons c cs ih =>
    by_cases hc : c = q
    · subst hc
      simp [doubled, read, ih]
    · simp [doubled, read, hc, ih]

private theorem read_quote_of_not_goesOn (parts : List (List Char)) (cs : List Char) {rest : List Char}
    (h : goesOn q rest = false) : read q parts (.quote cs) rest = some (parts ++ [cs], rest) := by
  cases rest with
  | nil => rfl
  | cons c rest =>
    obtain ⟨hc, hpoint⟩ : c ≠ q ∧ (c = '.' → rest.head? ≠ some q) := by simpa [goesOn] using h
    rw [read, if_neg hc]
    split
    · rename_i hdot
      subst hdot
      cases rest with
      | nil => rfl
      | cons d rest =>
        have hd : d ≠ q := fun hd => hpoint rfl (congrArg some hd)
        rw [read, if_neg hd]
    · rfl

/-- What a reader has taken up to where it stands. -/
def taken (q : Char) (parts : List (List Char)) (p : Place) : List Char :=
  (parts.flatMap fun part => delimited q part ++ ['.']) ++
    match p with
    | .inside cs => q :: doubled q cs
    | .quote cs => delimited q cs
    | .point cs => delimited q cs ++ ['.']

private theorem taken_quote (parts : List (List Char)) (cs : List Char) :
    taken q parts (.quote cs) = Text.join ['.'] ((parts ++ [cs]).map (delimited q)) := by
  induction parts with
  | nil => rfl
  | cons part parts ih =>
    have hne : (parts ++ [cs]).map (delimited q) ≠ [] := by simp
    rw [List.cons_append, List.map_cons, Text.join_cons_cons _ _ _ hne, ← ih]
    simp [taken]

private theorem taken_point (parts : List (List Char)) (cs : List Char) :
    taken q parts (.point cs) = taken q parts (.quote cs) ++ ['.'] := by
  simp [taken]

/-- Nothing is lost on the way, and the identifier ends where it does not go on. -/
theorem read_sound (hq : q ≠ '.') {parts segments : List (List Char)} {p : Place} {text rest : List Char}
    (h : read q parts p text = some (segments, rest)) :
    segments ≠ [] ∧ goesOn q rest = false ∧
      taken q parts p ++ text = Text.join ['.'] (segments.map (delimited q)) ++ rest := by
  have hpoint : ('.' == q) = false := by simpa using hq.symm
  fun_induction read q parts p text with
  | case1 => cases h
  | case2 parts cs text ih => simpa [taken, delimited] using ih h
  | case3 parts cs c text hc ih => simpa [taken, doubled_append, doubled, hc] using ih h
  | case4 parts cs =>
    cases h
    exact ⟨by simp, rfl, by rw [taken_quote]⟩
  | case5 parts cs text ih => simpa [taken, delimited, doubled_append, doubled] using ih h
  | case6 parts cs text hc ih => simpa [taken_point] using ih h
  | case7 parts cs c text hc hdot =>
    cases h
    exact ⟨by simp, by simp [goesOn, hc, hdot], by rw [taken_quote]⟩
  | case8 parts cs =>
    cases h
    exact ⟨by simp, by simp [goesOn, hpoint], by rw [taken_point, taken_quote, List.append_nil]⟩
  | case9 parts cs text ih => simpa [taken, doubled] using ih h
  | case10 parts cs c text hc =>
    cases h
    exact ⟨by simp, by simp [goesOn, hpoint, hc], by simp [taken_point, taken_quote]⟩

/-- A segment is read, and then those that points join on to it. -/
theorem read_complete (hq : q ≠ '.') {rest : List Char} (h : goesOn q rest = false) :
    ∀ (segments parts : List (List Char)) (cs acc : List Char),
      read q parts (.inside acc)
          (doubled q cs ++ q :: (segments.flatMap (fun part => '.' :: delimited q part) ++ rest)) =
        some (parts ++ (acc ++ cs) :: segments, rest)
  | [], parts, cs, acc => by
    rw [List.flatMap_nil, List.nil_append, read_doubled]
    exact read_quote_of_not_goesOn parts (acc ++ cs) h
  | next :: segments, parts, cs, acc => by
    have hnext := read_complete hq h segments (parts ++ [acc ++ cs]) next []
    rw [List.flatMap_cons, read_doubled]
    simpa [delimited, read, hq.symm] using hnext

/-- What is read as an identifier is its segments between quotes, with their quotes doubled and points between
them, up to where the identifier does not go on. -/
theorem read?_eq_some_iff (hq : q ≠ '.') {segments : List (List Char)} {text rest : List Char} :
    read? q text = some (segments, rest) ↔
      segments ≠ [] ∧ goesOn q rest = false ∧
        text = Text.join ['.'] (segments.map (delimited q)) ++ rest := by
  constructor
  · intro h
    cases text with
    | nil => cases h
    | cons c text =>
      by_cases hc : c = q
      · subst hc
        rw [read?, if_pos rfl] at h
        exact read_sound hq h
      · rw [read?, if_neg hc] at h
        cases h
  · rintro ⟨hne, hrest, rfl⟩
    obtain ⟨cs, segments, rfl⟩ := List.exists_cons_of_ne_nil hne
    have hread := read_complete hq hrest segments [] cs []
    rw [List.map_cons, Text.join_eq_append_flatMap, delimited, List.flatMap_map]
    simpa [read?] using hread

end Identifier

open Identifier

/-- The quotes of a row of segments, if each segment has two of its own and as many times over those in it. -/
theorem Text.count_join_map {q : Char} (hq : q ≠ '.') {f : List Char → List Char} {k : Nat}
    (hf : ∀ part, (f part).count q = 2 + k * part.count q) : ∀ parts : List (List Char),
    (Text.join ['.'] (parts.map f)).count q = 2 * parts.length + k * (Text.join ['.'] parts).count q
  | [] => by simp [Text.join]
  | [part] => by simp [Text.join, hf]
  | part :: next :: parts => by
    have ih := Text.count_join_map hq hf (next :: parts)
    have hpoint : ['.'].count q = 0 := List.count_eq_zero.mpr (by simpa using hq)
    rw [List.map_cons] at ih
    rw [List.map_cons, List.map_cons, Text.join, Text.join]
    simp only [List.count_append, hpoint, hf, ih, List.length_cons, Nat.mul_add]
    omega

namespace Spelling

variable {s : Spelling}

private theorem toList_name_eq_join (n : String) :
    (s.name n).toList = Text.join ['.'] ((Text.split '.' n.toList).map s.segment) := String.toList_ofList

private theorem count_segment (cs : List Char) : (s.segment cs).count s.quote = 2 + 1 * cs.count s.quote := by
  simp only [segment, List.count_append, List.count_cons_self, List.count_nil]
  omega

private theorem segment_injective {cs ds : List Char} (h : s.segment cs = s.segment ds) : cs = ds :=
  List.append_cancel_right (List.cons.inj h).2

/-- A name is its text: no other name is spelled so. -/
theorem name_injective (hq : s.quote ≠ '.') {n n' : String} (h : s.name n = s.name n') : n = n' := by
  have hsegments (n : String) :
      Text.split '.' (s.name n).toList = (Text.split '.' n.toList).map s.segment := by
    rw [toList_name_eq_join]
    refine Text.split_join (by simp [Text.split_ne_nil]) fun part hpart => ?_
    obtain ⟨cs, hcs, rfl⟩ := List.mem_map.mp hpart
    have hpoint := Text.not_mem_of_mem_split hcs
    simp [segment, hpoint, hq.symm]
  have hsplit : Text.split '.' n.toList = Text.split '.' n'.toList := by
    have hmap := hsegments n
    rw [h, hsegments n'] at hmap
    exact (List.map_inj_right fun _ _ => segment_injective).mp hmap.symm
  rw [← String.toList_inj, ← Text.join_split '.' n.toList, hsplit, Text.join_split]

/-- A name without a quote is spelled as its segments are written. -/
theorem toList_name_eq_delimited {n : String} (hn : s.quote ∉ n.toList) :
    (s.name n).toList = Text.join ['.'] ((Text.split '.' n.toList).map (delimited s.quote)) := by
  rw [toList_name_eq_join]
  refine congrArg (Text.join ['.']) (List.map_congr_left fun part hpart => ?_)
  have hfree : s.quote ∉ part := fun hmem =>
    hn (Text.join_split '.' n.toList ▸ Text.mem_join_of_mem hmem hpart)
  rw [segment, delimited, doubled_of_not_mem hfree]

/-- A name with a quote is shorter than its segments as they are written: its quotes stand alone. -/
theorem not_mem_of_name_eq_delimited (hq : s.quote ≠ '.') {n : String}
    (h : (s.name n).toList = Text.join ['.'] ((Text.split '.' n.toList).map (delimited s.quote))) :
    s.quote ∉ n.toList := by
  have hdelimited (part : List Char) :
      (delimited s.quote part).count s.quote = 2 + 2 * part.count s.quote := by
    simp only [delimited, List.count_append, List.count_cons_self, List.count_nil, count_doubled]
    omega
  have hcount := congrArg (List.count s.quote) h
  rw [toList_name_eq_join, Text.count_join_map hq count_segment, Text.count_join_map hq hdelimited,
    Text.join_split] at hcount
  exact List.count_eq_zero.mp (by omega)

end Spelling

private theorem Dialect.quote_ne_point {d : Dialect} (hd : d ∈ Dialect.given) : d.spelling.quote ≠ '.' := by
  rcases Dialect.eq_of_given hd with rfl | rfl | rfl <;> decide

namespace Identifier

/-- A name is read as its own segments, with all that follows it left, just if it holds no quote; and no
other name has its text. -/
theorem read?_name_iff {d : Dialect} (hd : d ∈ Dialect.given) (n : String) :
    (∀ rest, goesOn d.spelling.quote rest = false →
      (read? d.spelling.quote ((d.spelling.name n).toList ++ rest) = some (Text.split '.' n.toList, rest) ↔
        d.spelling.quote ∉ n.toList)) ∧
    ∀ n', d.spelling.name n' = d.spelling.name n → n' = n := by
  have hq := Dialect.quote_ne_point hd
  refine ⟨fun rest hrest => ?_, fun n' h => Spelling.name_injective hq h⟩
  rw [read?_eq_some_iff hq]
  constructor
  · rintro ⟨-, -, htext⟩
    exact Spelling.not_mem_of_name_eq_delimited hq (List.append_cancel_right htext)
  · intro hn
    exact ⟨Text.split_ne_nil '.' n.toList, hrest, by rw [Spelling.toList_name_eq_delimited hn]⟩

/-- A name of three segments, one of them empty and one with the quote of another dialect, and an alias
behind it. -/
theorem read?_name_iff_points :
    Dialect.mysql ∈ Dialect.given ∧ goesOn '\x60' " AS `u`".toList = false ∧
      read? '\x60' ((Dialect.mysql.spelling.name "app..odd\"name").toList ++ " AS `u`".toList) =
        some (["app".toList, [], "odd\"name".toList], " AS `u`".toList) := by
  have hd : Dialect.mysql ∈ Dialect.given := by simp [Dialect.given]
  have hrest : goesOn '\x60' " AS `u`".toList = false := by decide
  have hread := ((read?_name_iff hd "app..odd\"name").1 _ hrest).mpr (by decide)
  exact ⟨hd, hrest, hread⟩

/-- A table name that ends its own quotes: the reader takes a shorter name, and the rest of it as the
condition of a statement that was given none. -/
theorem read?_table_name_ended :
    let info : StructInfo := ⟨"Note", .named "Note", 8, none, [⟨"id", none, 0, 8, ⟨.integer .i64⟩⟩]⟩
    let schema : Schema := fun name => if name = "Note" then .struct info else .other
    let table : String := "notes\" WHERE \"id"
    let r : Registry := Registry.empty.register schema (.named "Note") [.table table]
    let c : Compiler := ⟨.standard, .byOffset, r.view schema⟩
    c.build (.delete (Deletion.all (.named "Note"))) = .ok ⟨"DELETE FROM \"notes\" WHERE \"id\";", []⟩ ∧
      read? '"' (Dialect.standard.spelling.name table).toList =
        some (["notes".toList], " WHERE \"id\"".toList) ∧
      Text.split '.' table.toList = [table.toList] := by
  intro info schema table r c
  have hbuild : c.build (.delete (Deletion.all (.named "Note"))) =
      .ok (Dialect.standard.spelling.statement [.text "DELETE FROM ", .name table]) := rfl
  refine ⟨?_, by decide, by decide⟩
  rw [hbuild]
  exact congrArg Except.ok (by decide)

end Identifier

end EntitySql
