import EntitySql.Proofs.Model.Reachable
import EntitySql.Proofs.Model.Tag
import EntitySql.Proofs.Text.Words

namespace EntitySql

def Text.Spellable (name : String) : Prop := ∃ c ∈ name.toList, isAlphanumeric c = true

private theorem Text.snakeCaseName_ne_empty_iff {name : String} : snakeCaseName name ≠ "" ↔ Spellable name := by
  have hempty : snakeCaseName name = "" ↔ snakeCase name.toList = [] := by simp [snakeCaseName]
  rw [ne_eq, hempty, snakeCase_eq_nil_iff, Spellable]
  simp

/-- The tag of a field names its column, or its own name can be spelled. -/
def FieldInfo.Named (info : FieldInfo) : Prop :=
  Text.Spellable info.name ∨
    ∃ tag column, info.tag = some tag ∧ Tag.Gives (Text.split ',' tag.toList) Model.columnKey column

def FieldInfo.ImplicitColumn (info : FieldInfo) : Prop :=
  ∀ tag, info.tag = some tag → ∀ column, ¬Tag.Gives (Text.split ',' tag.toList) Model.columnKey column

/-- Metadata that gives the table and every column a name. -/
structure StructInfo.Named (info : StructInfo) : Prop where
  table : ∀ table, info.table = some table → table ≠ ""
  name : info.table = none → Text.Spellable info.name
  fields : ∀ f ∈ info.fields, f.Named

def TypeInfo.Named : TypeInfo → Prop
  | .struct info => info.Named
  | .pointer target => target.Named
  | .other => True

def Schema.Named (schema : Schema) : Prop := ∀ name, (schema name).Named

private theorem Schema.Named.report {schema : Schema} (h : schema.Named) : ∀ t, (schema.report t).Named
  | .named name => h name
  | .boxed inside => Named.report h inside

def ModelOption.name : ModelOption → String
  | .table new | .column _ new => new

namespace Model

/-- The table and every column have a name. -/
structure Named (m : Model) : Prop where
  table : m.table ≠ ""
  columns : ∀ f ∈ m.fields, f.column ≠ ""

/-- A field that is mapped as it is declared. -/
structure Maps (info : FieldInfo) (f : Field) : Prop where
  name : f.name = info.name
  column : columnOf info = .ok f.column

private theorem maps_mapFields {size : Nat} {infos : List FieldInfo} {before fields : List Field}
    (h : mapFields size before infos = .ok fields) :
    ∃ mapped, fields = before ++ mapped ∧ List.Forall₂ Maps infos mapped := by
  induction infos generalizing before with
  | nil =>
    cases h
    exact ⟨[], (List.append_nil _).symm, .nil⟩
  | cons info rest ih =>
    rw [mapFields] at h
    split at h
    · cases h
    split at h
    · cases h
    rename_i column hcolumn
    split at h
    · cases h
    obtain ⟨mapped, rfl, hmapped⟩ := ih h
    exact ⟨_ :: mapped, List.append_assoc .., .cons ⟨rfl, hcolumn⟩ hmapped⟩

theorem maps_ofStruct {info : StructInfo} {m : Model} (h : ofStruct info = .ok m) :
    m.table = info.table.getD (Text.snakeCaseName info.name) ∧ List.Forall₂ Maps info.fields m.fields := by
  unfold ofStruct at h
  split at h
  · cases h
  rename_i fields hfields
  cases h
  obtain ⟨mapped, rfl, hmapped⟩ := maps_mapFields hfields
  exact ⟨rfl, hmapped⟩

/-- A column is named by the tag of its field, or is the spelling of its field. -/
theorem columnOf_cases {info : FieldInfo} {column : String} (h : columnOf info = .ok column) :
    (∃ tag, info.tag = some tag ∧ Tag.Gives (Text.split ',' tag.toList) columnKey column) ∨
      info.ImplicitColumn ∧ column = Text.snakeCaseName info.name := by
  unfold columnOf at h
  cases htag : info.tag with
  | none =>
    rw [htag] at h
    obtain rfl := Except.ok.inj h
    refine .inr ⟨fun tag hsome => ?_, rfl⟩
    rw [htag] at hsome
    cases hsome
  | some tag =>
    rw [htag] at h
    dsimp only at h
    split at h
    · cases h
    rename_i pairs hpairs
    obtain rfl := Except.ok.inj h
    cases hcolumn : pairs.get? columnKey with
    | some column => exact .inl ⟨tag, rfl, (Tag.get?_parse hpairs).mp hcolumn⟩
    | none =>
      refine .inr ⟨fun tag' hsome column hgives => ?_, rfl⟩
      rw [htag] at hsome
      obtain rfl := Option.some.inj hsome
      rw [(Tag.get?_parse hpairs).mpr hgives] at hcolumn
      cases hcolumn

private theorem columnOf_ne_empty_iff {info : FieldInfo} {column : String} (h : columnOf info = .ok column) :
    column ≠ "" ↔ info.Named := by
  rcases columnOf_cases h with ⟨tag, htag, hgives⟩ | ⟨himplicit, rfl⟩
  · exact iff_of_true hgives.ne_empty (.inr ⟨tag, column, htag, hgives⟩)
  · rw [Text.snakeCaseName_ne_empty_iff]
    refine ⟨.inl, fun h => ?_⟩
    rcases h with hname | ⟨tag, column, htag, hgives⟩
    · exact hname
    · exact absurd hgives (himplicit tag htag column)

private theorem column_eq_name_iff {info : FieldInfo} {column : String} (h : columnOf info = .ok column)
    (himplicit : info.ImplicitColumn) : column = info.name ↔ Text.SnakeCased info.name.toList := by
  rcases columnOf_cases h with ⟨tag, htag, hgives⟩ | ⟨-, rfl⟩
  · exact absurd hgives (himplicit tag htag column)
  · exact Text.snakeCaseName_eq_self_iff

private theorem named_ofStruct {info : StructInfo} {m : Model} (h : ofStruct info = .ok m) : m.Named ↔ info.Named := by
  obtain ⟨htable, hfields⟩ := maps_ofStruct h
  have htableNamed : m.table ≠ "" ↔
      (∀ table, info.table = some table → table ≠ "") ∧ (info.table = none → Text.Spellable info.name) := by
    rw [htable]
    cases info.table with
    | none => simp [Text.snakeCaseName_ne_empty_iff]
    | some table => simp
  have hcolumns : (∀ f ∈ m.fields, f.column ≠ "") ↔ ∀ f ∈ info.fields, f.Named := by
    generalize m.fields = fields at hfields
    generalize info.fields = infos at hfields
    induction hfields with
    | nil => simp
    | cons hmaps _ ih => rw [List.forall_mem_cons, List.forall_mem_cons, ih, columnOf_ne_empty_iff hmaps.column]
  constructor
  · intro hm
    obtain ⟨htable, hname⟩ := htableNamed.mp hm.table
    exact ⟨htable, hname, hcolumns.mp hm.columns⟩
  · intro hinfo
    exact ⟨htableNamed.mpr ⟨hinfo.table, hinfo.name⟩, hcolumns.mpr hinfo.fields⟩

private theorem named_parse {info : TypeInfo} {m : Model} (h : Model.parse info = .ok m) : m.Named ↔ info.Named := by
  unfold Model.parse at h
  split at h
  · exact named_ofStruct h
  · exact named_ofStruct h
  · cases h

private theorem named_schema {schema : Schema} (hs : schema.Named) {t : TypeId} {m : Model}
    (h : schema.parse t = .ok m) :
    m.Named := by
  have hreport := hs.report t
  unfold Schema.parse at h
  split at h
  · rename_i info hinfo
    rw [hinfo] at hreport
    split at h
    · exact (named_ofStruct h).mpr hreport
    · cases h
  · exact (named_parse h).mpr hreport

/-- The names in snake case are those that are spelled as they are, and every spelling is one of them. So nothing
changes when a spelling is spelled again, and where no tag names its column, a field has its own name as its column
just if that is in snake case. -/
theorem snakeCased_fixed :
    (∀ name : String, Text.snakeCaseName name = name ↔ Text.SnakeCased name.toList) ∧
      (∀ name : String, Text.SnakeCased (Text.snakeCaseName name).toList) ∧
      (∀ name : String, Text.snakeCaseName (Text.snakeCaseName name) = Text.snakeCaseName name) ∧
      ∀ (info : StructInfo) (m : Model), ofStruct info = .ok m →
        List.Forall₂ (fun d f => f.name = d.name ∧
          (d.ImplicitColumn → (f.column = d.name ↔ Text.SnakeCased d.name.toList))) info.fields m.fields := by
  refine ⟨fun name => Text.snakeCaseName_eq_self_iff, Text.snakeCased_snakeCaseName, fun name => ?_,
    fun info m h => ?_⟩
  · exact Text.snakeCaseName_eq_self_iff.mpr (Text.snakeCased_snakeCaseName name)
  · obtain ⟨-, hfields⟩ := maps_ofStruct h
    exact hfields.imp fun d f hmaps => ⟨hmaps.name, column_eq_name_iff hmaps.column⟩

theorem snakeCased_fixed_note :
    let title : FieldInfo := ⟨"title_2nd", none, 0, 8, ⟨.integer .i64⟩⟩
    let owner : FieldInfo := ⟨"ownerID", none, 8, 8, ⟨.integer .i64⟩⟩
    let m : Model :=
      ⟨"note", .named "Note",
        [⟨"title_2nd", "title_2nd", 0, 8, ⟨.integer .i64⟩, 0⟩, ⟨"ownerID", "owner_id", 8, 8, ⟨.integer .i64⟩, 1⟩]⟩
    ofStruct ⟨"Note", .named "Note", 16, none, [title, owner]⟩ = .ok m ∧ title.ImplicitColumn ∧
      owner.ImplicitColumn ∧ Text.SnakeCased title.name.toList ∧ ¬Text.SnakeCased owner.name.toList := by
  intro title owner m
  have hm : ofStruct ⟨"Note", .named "Note", 16, none, [title, owner]⟩ = .ok m := by decide +kernel
  have htitle : title.ImplicitColumn := nofun
  have howner : owner.ImplicitColumn := nofun
  obtain ⟨-, -, -, hfields⟩ := snakeCased_fixed
  cases hfields _ m hm with
  | cons hfirst hrest =>
    cases hrest with
    | cons hsecond _ =>
      have hne : "owner_id" ≠ owner.name := by decide
      exact ⟨hm, htitle, howner, (hfirst.2 htitle).mp rfl, fun h => hne ((hsecond.2 howner).mpr h)⟩

private theorem apply_of_empty {m : Model} {option : ModelOption} (h : option.name = "") :
    ∃ detail, m.apply option = .error (.invalidModelOption detail) := by
  cases option with
  | table name =>
    obtain rfl : name = "" := h
    exact ⟨_, rfl⟩
  | column field column =>
    obtain rfl : column = "" := h
    exact ⟨_, rfl⟩

/-- An option that succeeds has given its name to the table or to the column of a field. -/
theorem apply_renames {m m' : Model} {option : ModelOption} (h : m.apply option = .ok m') :
    m' = { m with table := option.name } ∨ ∃ place, m' = m.setColumn place option.name := by
  cases option with
  | table name =>
    rw [Model.apply] at h
    split at h
    · cases h
    · cases h
      exact .inl rfl
  | column field column =>
    rw [Model.apply] at h
    split at h
    · cases h
    split at h
    · cases h
    split at h
    · cases h
      exact .inr ⟨_, rfl⟩
    split at h
    · cases h
      exact .inr ⟨_, rfl⟩
    · cases h

private theorem Named.apply {m m' : Model} {option : ModelOption} (hm : m.Named) (h : m.apply option = .ok m') :
    m'.Named := by
  have hname : option.name ≠ "" := fun hempty => by
    obtain ⟨detail, herror⟩ := apply_of_empty (m := m) hempty
    cases herror.symm.trans h
  rcases apply_renames h with rfl | ⟨place, rfl⟩
  · exact ⟨hname, hm.columns⟩
  · refine ⟨hm.table, fun f hf => ?_⟩
    obtain ⟨g, hg, rfl⟩ := List.mem_map.mp hf
    split
    · exact hname
    · exact hm.columns g hg

private theorem applyAll_of_empty {options : List ModelOption} {option : ModelOption} (hmem : option ∈ options)
    (h : option.name = "") (m : Model) : ∃ e, m.applyAll options = .error e := by
  induction options generalizing m with
  | nil => cases hmem
  | cons first rest ih =>
    rw [applyAll]
    cases hfirst : m.apply first with
    | error e => exact ⟨e, rfl⟩
    | ok m' =>
      rcases List.mem_cons.mp hmem with rfl | hmem
      · obtain ⟨detail, herror⟩ := apply_of_empty (m := m) h
        cases herror.symm.trans hfirst
      · exact ih hmem m'

end Model

namespace Registry

private theorem registered_of_empty {options : List ModelOption} {option : ModelOption} (hmem : option ∈ options)
    (h : option.name = "") (schema : Schema) (t : TypeId) : ∃ e, registered schema t options = .error e := by
  unfold registered
  split
  · exact ⟨_, rfl⟩
  · exact Model.applyAll_of_empty hmem h _

/-- A registry whose metadata gives names gives out no model without: an option with an empty name is refused. And
a model as it is parsed has names for its table and its columns only if its metadata gives them. -/
theorem gives_named {r : Registry} {schema : Schema} (hr : r.ReachableBy Schema.Named) (hs : schema.Named) :
    (∀ m, r.Gives schema m → m.Named) ∧
      (∀ (t : TypeId) (options : List ModelOption), (∃ option ∈ options, option.name = "") →
        ∃ e, registered schema t options = .error e) ∧
      ∀ (info : TypeInfo) (m : Model), Model.parse info = .ok m → (m.Named ↔ info.Named) := by
  refine ⟨fun m h => ?_, ?_, fun info m h => Model.named_parse h⟩
  · exact h.holds (fun hs hm => Model.named_schema hs hm) (fun hm ha => hm.apply ha) hr hs
  · rintro t options ⟨option, hmem, hempty⟩
    exact registered_of_empty hmem hempty schema t

theorem gives_named_renamed :
    let note : StructInfo := ⟨"Note", .named "Note", 8, none, [⟨"__", some "column=id", 0, 8, ⟨.integer .i64⟩⟩]⟩
    let schema : Schema := fun name => if name = "Note" then .struct note else .other
    schema.Named ∧ empty.Gives schema ⟨"notes", .named "Note", [⟨"__", "key", 0, 8, ⟨.integer .i64⟩, 0⟩]⟩ ∧
      ∀ m, empty.Gives schema m → m.Named := by
  intro note schema
  have hnamed : schema.Named := by
    intro name
    by_cases hname : name = "Note"
    · have htag : Tag.parse "column=id" = .ok [("column", "id")] := by decide +kernel
      have hfield : FieldInfo.Named ⟨"__", some "column=id", 0, 8, ⟨.integer .i64⟩⟩ :=
        .inr ⟨_, "id", rfl, (Tag.get?_parse htag).mp rfl⟩
      simp only [schema, hname, if_true]
      exact ⟨nofun, fun _ => ⟨'N', by decide, rfl⟩, fun f hf => List.mem_singleton.mp hf ▸ hfield⟩
    · simp only [schema, hname, if_false]
      trivial
  refine ⟨hnamed, .inr ⟨.named "Note", [.table "notes", .column "__" "key"], ?_⟩, fun m h => ?_⟩
  · decide +kernel
  · exact (gives_named .empty hnamed).1 m h

/-- An empty table is declared, or nothing of a name can be spelled. -/
theorem gives_nameless :
    let account : StructInfo := ⟨"Account", .named "Account", 8, some "", [⟨"id", none, 0, 8, ⟨.integer .i64⟩⟩]⟩
    let stroke : StructInfo := ⟨"__", .named "__", 8, none, [⟨"__", none, 0, 8, ⟨.integer .i64⟩⟩]⟩
    let schema : Schema := fun name =>
      if name = "Account" then .struct account else if name = "__" then .struct stroke else .other
    empty.view schema (.named "Account") = .ok ⟨"", .named "Account", [⟨"id", "id", 0, 8, ⟨.integer .i64⟩, 0⟩]⟩ ∧
      empty.view schema (.named "__") = .ok ⟨"", .named "__", [⟨"__", "", 0, 8, ⟨.integer .i64⟩, 0⟩]⟩ := by
  intro account stroke schema
  exact ⟨by decide +kernel, by decide +kernel⟩

end Registry

end EntitySql
