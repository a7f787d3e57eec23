import EntitySql.Declaration.Derive
import EntitySql.Proofs.Entity.Decoding
import EntitySql.Proofs.Model.Naming

namespace EntitySql

open Text

/-- An `orm` with one text for the word `column`, with or without a comma behind it. -/
def Annotation.SetsColumn (a : Annotation) (text : String) : Prop :=
  a.path.isJust "orm" = true ∧ ∃ joined behind,
    a.given = .group (.name Model.columnKey :: .mark '=' joined :: .text text :: behind) ∧
      (behind = [] ∨ ∃ joined, behind = [.mark ',' joined])

/-- Of the annotations of a field, the only one for `orm` sets its column. -/
def FieldDeclaration.SetsColumn (f : FieldDeclaration) (text : String) : Prop :=
  ∃ found a, Declaration.annotations f.attributes = .ok found ∧ found.filter (·.path.isJust "orm") = [a] ∧
    a.SetsColumn text

/-- What is derived from a field: its plain name, and the tag of its annotations. -/
structure FieldDeclaration.Derives (f : FieldDeclaration) (field : String × Option String) : Prop where
  name : field.1 = Declaration.nameOf f.name
  tag : ∃ found, Declaration.annotations f.attributes = .ok found ∧ Declaration.fieldTag found = .ok field.2

/-- The metadata of a type that was derived: its names and tags, wherever the fields lie. -/
structure Derived.Reports (out : Derived) (info : StructInfo) : Prop where
  name : info.name = out.name
  table : info.table = out.table
  fields : info.fields.map (fun f => (f.name, f.tag)) = out.fields

/-- Rows that agree have elements in the same places. -/
theorem exists_getElem? {α β : Type} {R : α → β → Prop} {xs : List α} {ys : List β} (h : List.Forall₂ R xs ys)
    {i : Nat} {x : α} (hx : xs[i]? = some x) : ∃ y, ys[i]? = some y ∧ R x y := by
  obtain ⟨hi, rfl⟩ := List.getElem?_eq_some_iff.mp hx
  have hi' : i < ys.length := h.length_eq ▸ hi
  exact ⟨ys[i], List.getElem?_eq_getElem hi', h.get hi hi'⟩

namespace Tag

variable {text key value column : String} {first : List Char} {others : List (List Char)}

/-- The tag of a field that sets its column by a text. -/
def ofColumn (text : String) : String := "column=" ++ text

/-- Behind `column=` a text makes a tag: the part before its first comma has something besides blanks and no `=`,
and every other part is a pair. -/
def Admits (text : String) : Prop :=
  ∀ first others, split ',' text.toList = first :: others →
    '=' ∉ first ∧ (∃ c ∈ first, isBlank c = false) ∧ ∀ part ∈ others, WellFormed part

private theorem split_ofColumn (h : split ',' text.toList = first :: others) :
    split ',' (ofColumn text).toList = ("column=".toList ++ first) :: others := by
  rw [ofColumn, String.toList_append]
  have hcomma : ',' ∉ "column=".toList := by decide
  exact split_append_of_split hcomma h

private theorem isPair_column_iff :
    IsPair ("column=".toList ++ first) key value ↔
      key = Model.columnKey ∧ value ≠ "" ∧ '=' ∉ first ∧ TrimsTo isBlank first value.toList := by
  have hkey : TrimsTo isBlank "column".toList Model.columnKey.toList := trim_eq_iff.mp (by decide)
  constructor
  · rintro ⟨-, hvalue, left, right, hsegment, hleft, hright, hbefore, hbehind⟩
    -- The first `=` is the one behind the key, whatever the text holds, so a second one in the text is one too many.
    have hmark : '=' ∉ "column".toList := by decide
    have hsplit : split '=' ("column=".toList ++ first) = "column".toList :: split '=' first :=
      split_append_sep hmark first
    rw [split_eq_pair_iff.mpr ⟨hsegment, hleft, hright⟩] at hsplit
    obtain ⟨rfl, hrest⟩ := List.cons.inj hsplit
    have hfirst : right = first := by simpa [← hrest, join] using join_split '=' first
    subst hfirst
    refine ⟨String.toList_inj.mp ?_, hvalue, hright, hbehind⟩
    rw [← trim_of_trimsTo hbefore, trim_of_trimsTo hkey]
  · rintro ⟨rfl, hvalue, hfirst, htrims⟩
    exact ⟨by decide, hvalue, "column".toList, first, rfl, by decide, hfirst, hkey, htrims⟩

private theorem wellFormed_column_iff :
    WellFormed ("column=".toList ++ first) ↔ '=' ∉ first ∧ ∃ c ∈ first, isBlank c = false := by
  simp only [WellFormed, isPair_column_iff]
  constructor
  · rintro ⟨_, value, -, hvalue, hequals, ⟨hfirst, -⟩, before, after, rfl, -⟩
    obtain ⟨c, rest, hrest⟩ := List.exists_cons_of_ne_nil (mt String.toList_eq_nil_iff.mp hvalue)
    exact ⟨hequals, c, by simp [hrest], hfirst c (by simp [hrest])⟩
  · rintro ⟨hequals, c, hc, hkept⟩
    have htrims := trimsTo_trim isBlank first
    refine ⟨_, String.ofList (trim isBlank first), rfl, fun hempty => ?_, hequals, by simpa using htrims⟩
    have hnone : trim isBlank first = [] := by simpa using hempty
    rw [hnone] at htrims
    rw [trimsTo_nil_iff.mp htrims c hc] at hkept
    cases hkept

/-- A field whose tag is that of a text, and the column that it is mapped to. -/
theorem gives_of_columnOf {info : FieldInfo} (htag : info.tag = some (ofColumn text))
    (h : Model.columnOf info = .ok column) :
    (∀ segment ∈ split ',' (ofColumn text).toList, WellFormed segment) ∧
      Gives (split ',' (ofColumn text).toList) Model.columnKey column := by
  unfold Model.columnOf at h
  rw [htag] at h
  dsimp only at h
  split at h
  · cases h
  rename_i pairs hpairs
  have hall := parse_ok_iff.mp ⟨pairs, hpairs⟩
  obtain ⟨first, others, hsplit⟩ := List.exists_cons_of_ne_nil (split_ne_nil ',' text.toList)
  have hcolumns := split_ofColumn hsplit
  obtain ⟨key, value, hpair⟩ := hall _ (hcolumns ▸ List.mem_cons_self)
  obtain ⟨rfl, -⟩ := isPair_column_iff.mp hpair
  obtain ⟨last, hlast⟩ := exists_gives (hcolumns ▸ List.mem_cons_self) hpair
  rw [(get?_parse hpairs).mpr hlast] at h
  cases h
  exact ⟨hall, hlast⟩

private theorem columnOf_ok_iff {info : FieldInfo} (htag : info.tag = some (ofColumn text)) :
    (∃ column, Model.columnOf info = .ok column) ↔ Admits text := by
  obtain ⟨first, others, hsplit⟩ := List.exists_cons_of_ne_nil (split_ne_nil ',' text.toList)
  have hall : (∀ segment ∈ split ',' (ofColumn text).toList, WellFormed segment) ↔ Admits text := by
    rw [split_ofColumn hsplit, List.forall_mem_cons, wellFormed_column_iff, and_assoc]
    exact ⟨fun h _ _ hparts => by cases hsplit.symm.trans hparts; exact h, fun h => h first others hsplit⟩
  rw [← hall]
  refine ⟨fun ⟨column, h⟩ => (gives_of_columnOf htag h).1, fun h => ?_⟩
  obtain ⟨tag, hparse⟩ := parse_ok_iff.mpr h
  refine ⟨(tag.get? Model.columnKey).getD (snakeCaseName info.name), ?_⟩
  simp only [Model.columnOf, htag, hparse]

private theorem trimsTo_of_gives (hcomma : ',' ∉ text.toList)
    (h : Gives (split ',' (ofColumn text).toList) Model.columnKey column) :
    TrimsTo isBlank text.toList column.toList := by
  rw [split_ofColumn (split_of_not_mem hcomma)] at h
  obtain ⟨before, segment, after, hsegments, hpair, -⟩ := h
  have hmem : segment ∈ ["column=".toList ++ text.toList] := hsegments ▸ by simp
  rw [List.mem_singleton.mp hmem] at hpair
  exact (isPair_column_iff.mp hpair).2.2.2

/-- A text without commas is the column as it is written if there are no blanks at its ends. -/
theorem column_eq_iff (h : TrimsTo isBlank text.toList column.toList) :
    column = text ↔ Trimmed isBlank text.toList := by
  rw [← String.toList_inj, ← trim_of_trimsTo h, trim_eq_self_iff]

private theorem Plain.admits (h : Plain text) : Admits text := by
  intro first others hsplit
  rw [split_of_not_mem h.comma] at hsplit
  cases hsplit
  obtain ⟨c, rest, hrest⟩ := List.exists_cons_of_ne_nil (mt String.toList_eq_nil_iff.mp h.ne_empty)
  exact ⟨h.equals, ⟨c, by simp [hrest], h.trimmed.first c (by simp [hrest])⟩, List.forall_mem_nil _⟩

end Tag

namespace Declaration

private theorem segments_column (text : String) (joined : Bool) {behind : List Token}
    (h : behind = [] ∨ ∃ joined, behind = [.mark ',' joined]) (k : Nat) :
    segments (k + 2) (.name Model.columnKey :: .mark '=' joined :: .text text :: behind) =
      .ok [Tag.ofColumn text] := by
  rcases h with rfl | ⟨joined', rfl⟩
  · rfl
  · rfl

private theorem tagOf_column {a : Annotation} {text : String} (h : a.SetsColumn text) :
    tagOf a = .ok (some (Tag.ofColumn text)) := by
  obtain ⟨path, given⟩ := a
  obtain ⟨horm, joined, behind, hgiven, hbehind⟩ := h
  obtain rfl : given = _ := hgiven
  have hone : String.intercalate "," [Tag.ofColumn text] = Tag.ofColumn text := rfl
  simp only [tagOf, horm, Bool.not_true, Bool.false_eq_true, if_false, List.length_cons]
  rw [segments_column text joined hbehind]
  simp only [hone]

private theorem fieldTag_filter (found : List Annotation) : fieldTag
    (found.filter (·.path.isJust "orm")) = fieldTag found := by
  induction found with
  | nil => rfl
  | cons a rest ih =>
    cases horm : a.path.isJust "orm" with
    | true => simp only [List.filter_cons, horm, if_true, fieldTag, ih]
    | false =>
      have htag : tagOf a = .ok none := if_pos (by rw [horm]; rfl)
      simp only [List.filter_cons, horm, Bool.false_eq_true, if_false, ih, fieldTag, htag]
      cases fieldTag rest with
      | error e => rfl
      | ok later => cases later <;> rfl

private theorem fieldTag_only {found : List Annotation} {a : Annotation} {tag : String}
    (h : found.filter (·.path.isJust "orm") = [a]) (ha : tagOf a = .ok (some tag)) :
    fieldTag found = .ok (some tag) := by
  rw [← fieldTag_filter, h, fieldTag, ha]
  rfl

private theorem derives_deriveField {f : FieldDeclaration} {declared : String × List Annotation}
    {field : String × Option String}
    (hread : (fun found => (nameOf f.name, found)) <$> annotations f.attributes = .ok declared)
    (hfield : deriveField declared = .ok field) : f.Derives field := by
  cases hfound : annotations f.attributes with
  | error e =>
    rw [hfound] at hread
    cases hread
  | ok found =>
    rw [hfound] at hread
    cases hread
    rw [deriveField] at hfield
    cases htag : fieldTag found with
    | error e =>
      rw [htag] at hfield
      cases hfield
    | ok tag =>
      rw [htag] at hfield
      cases hfield
      exact ⟨rfl, found, hfound, htag⟩

private theorem derives_fields {fields : List FieldDeclaration} {declared : List (String × List Annotation)}
    {derived : List (String × Option String)}
    (hread : fields.mapM (fun f => (nameOf f.name, ·) <$> annotations f.attributes) = .ok declared)
    (hderived : declared.mapM deriveField = .ok derived) : List.Forall₂ FieldDeclaration.Derives fields derived := by
  rw [mapM_eq_ok_iff] at hread hderived
  induction hread generalizing derived with
  | nil =>
    cases hderived
    exact .nil
  | cons hfirst _ ih =>
    cases hderived with
    | cons hfield hrest => exact .cons (derives_deriveField hfirst hfield) (ih hrest)

private theorem derives_derive {d : Declaration} {out : Derived} (h : d.derive = .ok out) :
    List.Forall₂ FieldDeclaration.Derives d.fields out.fields := by
  unfold derive at h
  obtain ⟨own, -, h⟩ := exists_ok_of_bind h
  obtain ⟨declared, hdeclared, h⟩ := exists_ok_of_bind h
  dsimp only at h
  by_cases hform : d.isWellFormed = true
  · by_cases hgeneric : d.isGeneric = true
    · rw [hform, hgeneric] at h
      cases h
    · simp only [hform, hgeneric, Bool.not_true, Bool.false_eq_true, if_false] at h
      obtain ⟨-, -, h⟩ := exists_ok_of_bind h
      obtain ⟨-, -, h⟩ := exists_ok_of_bind h
      obtain ⟨table, -, h⟩ := exists_ok_of_bind h
      obtain ⟨fields, hfields, h⟩ := exists_ok_of_bind h
      cases h
      exact derives_fields hdeclared hfields
  · rw [Bool.eq_false_iff.mpr hform] at h
    cases h

private theorem ofText?_columnKey : Token.ofText? Model.columnKey = some [.name Model.columnKey] := by rfl

private theorem ofTokens?_orm (inner : List Token) :
    Annotation.ofTokens? [.name "orm", .group .round inner] = some ⟨⟨false, ["orm"]⟩, .group inner⟩ := by rfl

private theorem annotations?_pair (text : String) (trailingComma : Bool) :
    (Attribute.pairs [(Model.columnKey, .text text)] trailingComma).annotations? = some [⟨⟨false, ["orm"]⟩,
      .group (.name Model.columnKey :: .mark '=' false :: .text text ::
        if trailingComma then [.mark ',' false] else [])⟩] := by
  have htokens : Attribute.pairTokens? Model.columnKey (.text text) =
      some [.name Model.columnKey, .mark '=' false, .text text] := by
    rw [Attribute.pairTokens?, ofText?_columnKey]
    rfl
  cases trailingComma <;>
    simp [Attribute.annotations?, Attribute.tokens?, htokens, Attribute.call, Annotation.listOfTokens?, ofTokens?_orm,
      Attribute.comma]

/-- A pair of the word `column` and a text, alone in an `orm` attribute, sets the column. -/
theorem setsColumn_pair {name type text : String} {trailingComma : Bool} :
    FieldDeclaration.SetsColumn ⟨name, type, [.pairs [(Model.columnKey, .text text)] trailingComma]⟩ text := by
  refine ⟨_, _, by simp only [annotations, List.mapM_cons, annotations?_pair]; rfl, rfl, rfl, false, _, rfl, ?_⟩
  cases trailingComma with
  | false => exact .inl rfl
  | true => exact .inr ⟨false, rfl⟩

/-- A field that sets its column is mapped to the text without the blanks at its ends if there is no comma in it,
and the struct is refused if the text makes no tag. So a text without blanks at its ends and without commas is the
column as it is written, or the struct is not mapped. -/
theorem column_of_setsColumn {d : Declaration} {out : Derived} {info : StructInfo} {i : Nat} {f : FieldDeclaration}
    {text : String} (h : d.derive = .ok out) (hreports : out.Reports info) (hf : d.fields[i]? = some f)
    (hsets : f.SetsColumn text) :
    ∃ field, info.fields[i]? = some field ∧ field.name = nameOf f.name ∧
      (Tag.Plain text → Model.columnOf field = .ok text) ∧
      (¬Tag.Admits text → ∃ e, Model.parse (.struct info) = .error e) ∧
      ∀ m, Model.parse (.struct info) = .ok m → ∃ mapped, m.fields[i]? = some mapped ∧ mapped.name = field.name ∧
        (',' ∉ text.toList → TrimsTo isBlank text.toList mapped.column.toList ∧
          (mapped.column = text ↔ Trimmed isBlank text.toList)) := by
  obtain ⟨derived, hderived, hname, found, hfound, hfieldTag⟩ := exists_getElem? (derives_derive h) hf
  obtain ⟨found', a, hfound', honly, ha⟩ := hsets
  cases hfound.symm.trans hfound'
  have htag : derived.2 = some (Tag.ofColumn text) :=
    Except.ok.inj (hfieldTag.symm.trans (fieldTag_only honly (tagOf_column ha)))
  rw [← hreports.fields, List.getElem?_map, Option.map_eq_some_iff] at hderived
  obtain ⟨field, hfield, rfl⟩ := hderived
  have hmapped : ∀ m, Model.parse (.struct info) = .ok m → ∃ mapped, m.fields[i]? = some mapped ∧
      Model.Maps field mapped := fun m hm => exists_getElem? (Model.maps_ofStruct hm).2 hfield
  refine ⟨field, hfield, hname, fun hplain => ?_, fun hrefused => ?_, fun m hm => ?_⟩
  · obtain ⟨column, hcolumn⟩ := (Tag.columnOf_ok_iff htag).mpr hplain.admits
    have htrims := Tag.trimsTo_of_gives hplain.comma (Tag.gives_of_columnOf htag hcolumn).2
    rw [hcolumn, (Tag.column_eq_iff htrims).mpr hplain.trimmed]
  · cases hm : Model.parse (.struct info) with
    | error e => exact ⟨e, rfl⟩
    | ok m =>
      obtain ⟨mapped, -, hmaps⟩ := hmapped m hm
      exact absurd ((Tag.columnOf_ok_iff htag).mp ⟨_, hmaps.column⟩) hrefused
  · obtain ⟨mapped, hplace, hmaps⟩ := hmapped m hm
    refine ⟨mapped, hplace, hmaps.name, fun hcomma => ?_⟩
    have htrims := Tag.trimsTo_of_gives hcomma (Tag.gives_of_columnOf htag hmaps.column).2
    exact ⟨htrims, Tag.column_eq_iff htrims⟩

theorem column_of_setsColumn_plain :
    let f : FieldDeclaration := ⟨"nick_name", "String", [.pairs [(Model.columnKey, .text "nick")] true]⟩
    let d : Declaration := ⟨.struct, "User", "", [], [⟨"id", "i64", []⟩, f]⟩
    let info : StructInfo := ⟨"User", .named "User", 32, none, [⟨"id", none, 0, 8, ⟨.integer .i64⟩⟩,
      ⟨"nick_name", some "column=nick", 8, 24, ⟨.text⟩⟩]⟩
    ∃ out m mapped, d.derive = .ok out ∧ out.Reports info ∧ d.fields[1]? = some f ∧ f.SetsColumn "nick" ∧
      Model.parse (.struct info) = .ok m ∧ m.fields[1]? = some mapped ∧ mapped.column = "nick" := by
  intro f d info
  let out : Derived := ⟨"User", none, [("id", none), ("nick_name", some "column=nick")],
    [("FIELD_ID", "id"), ("FIELD_NICK_NAME", "nick_name")]⟩
  let m : Model := ⟨"user", .named "User",
    [⟨"id", "id", 0, 8, ⟨.integer .i64⟩, 0⟩, ⟨"nick_name", "nick", 8, 24, ⟨.text⟩, 1⟩]⟩
  have hderive : d.derive = .ok out := by decide +kernel
  have hreports : out.Reports info := ⟨rfl, rfl, rfl⟩
  have hf : d.fields[1]? = some f := rfl
  have hparse : Model.parse (.struct info) = .ok m := by decide +kernel
  obtain ⟨field, -, -, -, -, hmapped⟩ := column_of_setsColumn hderive hreports hf setsColumn_pair
  obtain ⟨mapped, hplace, -, hcolumn⟩ := hmapped m hparse
  exact ⟨out, m, mapped, hderive, hreports, hf, setsColumn_pair, hparse, hplace,
    (hcolumn (by decide)).2.mpr (by decide +kernel)⟩

/-- Blanks at the ends of a text are left out, and a pair behind a comma takes the place of the text before it. -/
theorem column_ne_text :
    let f (text : String) : FieldDeclaration := ⟨"nick_name", "String", [.pairs [(Model.columnKey, .text text)] false]⟩
    let info (text : String) : StructInfo :=
      ⟨"User", .named "User", 24, none, [⟨"nick_name", some (Tag.ofColumn text), 0, 24, ⟨.text⟩⟩]⟩
    ∀ pair ∈ [(" nick ", "nick"), ("first,column=last", "last")],
      (f pair.1).SetsColumn pair.1 ∧
        (∃ out, derive ⟨.struct, "User", "", [], [f pair.1]⟩ = .ok out ∧ out.Reports (info pair.1)) ∧
        Model.parse (.struct (info pair.1)) = .ok ⟨"user", .named "User", [⟨"nick_name", pair.2, 0, 24, ⟨.text⟩, 0⟩]⟩ ∧
        pair.2 ≠ pair.1 := by
  intro f info pair hpair
  let out (text : String) : Derived :=
    ⟨"User", none, [("nick_name", some (Tag.ofColumn text))], [("FIELD_NICK_NAME", "nick_name")]⟩
  refine ⟨setsColumn_pair, ⟨out pair.1, ?_, ⟨rfl, rfl, rfl⟩⟩, ?_, ?_⟩
  all_goals
    revert pair
    decide +kernel

end Declaration

end EntitySql
