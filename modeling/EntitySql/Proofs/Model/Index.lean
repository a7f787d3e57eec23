import EntitySql.Model.Index
import EntitySql.Proofs.Model.Reachable

namespace EntitySql

def Field.declared (f : Field) : String × Nat × Nat := (f.name, f.offset, f.size)

def FieldInfo.declared (info : FieldInfo) : String × Nat × Nat := (info.name, info.offset, info.size)

private theorem getElem?_concat_eq_some_iff {l : List Field} {f g : Field} {i : Nat} :
    (l ++ [f])[i]? = some g ↔ l[i]? = some g ∨ i = l.length ∧ f = g := by
  rcases Nat.lt_trichotomy i l.length with hi | rfl | hi
  · rw [List.getElem?_append_left hi]
    constructor
    · exact .inl
    · rintro (hg | ⟨rfl, -⟩)
      · exact hg
      · exact absurd hi (Nat.lt_irrefl _)
  · simp
  · have hlast : (l ++ [f])[i]? = none := List.getElem?_eq_none (by simpa using Nat.succ_le_of_lt hi)
    have hnone : l[i]? = none := List.getElem?_eq_none (Nat.le_of_lt hi)
    rw [hlast, hnone]
    constructor
    · exact nofun
    · rintro (hg | ⟨rfl, -⟩)
      · cases hg
      · exact absurd hi (Nat.lt_irrefl _)

private theorem getElem?_set_eq_some_iff {l : List Field} {f f' g : Field} {place i : Nat}
    (h : l[place]? = some f) :
    (l.set place f')[i]? = some g ↔ i = place ∧ f' = g ∨ i ≠ place ∧ l[i]? = some g := by
  rw [List.getElem?_set]
  by_cases hi : place = i
  · subst hi
    have hlt : place < l.length := (List.getElem?_eq_some_iff.mp h).1
    simp [hlt]
  · have hi' : i ≠ place := fun heq => hi heq.symm
    simp [hi, hi']

namespace IndexedModel

variable {m m' : IndexedModel}

/-- The indexes tell what the fields say. -/
structure WellIndexed (m : IndexedModel) : Prop where
  places : ∀ (i : Nat) (f : Field), m.fields[i]? = some f → f.place = i
  names : ∀ name, m.byField.get? name = (m.plain.field? name).map Field.place
  columns : ∀ (column : String) (i : Nat),
    m.byColumn.get? column = some i ↔ ∃ f : Field, m.fields[i]? = some f ∧ f.column = column

namespace WellIndexed

private theorem getElem?_place (h : m.WellIndexed) {f : Field} (hf : f ∈ m.fields) : m.fields[f.place]? = some f := by
  obtain ⟨i, hi⟩ := List.mem_iff_getElem?.mp hf
  rw [h.places i f hi, hi]

private theorem field?_eq (h : m.WellIndexed) (name : String) : m.field? name = m.plain.field? name := by
  unfold IndexedModel.field?
  rw [h.names]
  cases hf : m.plain.field? name with
  | none => rfl
  | some f => exact h.getElem?_place (Model.mem_of_field? hf)

private theorem column?_eq_some_iff (h : m.WellIndexed) (column : String) (f : Field) :
    m.column? column = some f ↔ f ∈ m.fields ∧ f.column = column := by
  unfold IndexedModel.column?
  constructor
  · intro hf
    obtain ⟨i, hi, hf⟩ := Option.bind_eq_some_iff.mp hf
    obtain ⟨g, hg, hcolumn⟩ := (h.columns column i).mp hi
    cases hf.symm.trans hg
    exact ⟨List.mem_of_getElem? hg, hcolumn⟩
  · rintro ⟨hf, hcolumn⟩
    obtain ⟨i, hi⟩ := List.mem_iff_getElem?.mp hf
    exact Option.bind_eq_some_iff.mpr ⟨i, (h.columns column i).mpr ⟨f, hi, hcolumn⟩, hi⟩

/-- Two fields with one column are one field. -/
theorem eq_of_column (h : m.WellIndexed) {f g : Field} (hf : f ∈ m.fields) (hg : g ∈ m.fields)
    (hcolumn : f.column = g.column) : f = g := by
  have hf' := (h.column?_eq_some_iff g.column f).mpr ⟨hf, hcolumn⟩
  have hg' := (h.column?_eq_some_iff g.column g).mpr ⟨hg, rfl⟩
  exact Option.some.inj (hf'.symm.trans hg')

private theorem column?_eq (h : m.WellIndexed) (column : String) : m.column? column = m.plain.column? column := by
  cases hf : m.plain.column? column with
  | some f =>
    have hcolumn : f.column = column := by simpa using List.find?_some hf
    exact (h.column?_eq_some_iff column f).mpr ⟨List.mem_of_find?_eq_some hf, hcolumn⟩
  | none =>
    refine Option.eq_none_iff_forall_ne_some.mpr fun f hf' => ?_
    obtain ⟨hmem, hcolumn⟩ := (h.column?_eq_some_iff column f).mp hf'
    have hne := List.find?_eq_none.mp hf f hmem
    simp [hcolumn] at hne

private theorem columns_nodup (h : m.WellIndexed) : (m.fields.map Field.column).Nodup := by
  refine List.pairwise_iff_getElem.mpr fun i j hi hj hij heq => ?_
  rw [List.length_map] at hi hj
  rw [List.getElem_map, List.getElem_map] at heq
  have hi' := (h.columns _ i).mpr ⟨_, List.getElem?_eq_getElem hi, heq⟩
  have hj' := (h.columns _ j).mpr ⟨_, List.getElem?_eq_getElem hj, rfl⟩
  have hsame : i = j := Option.some.inj (hi'.symm.trans hj')
  omega

end WellIndexed

private theorem wellIndexed_empty (table : String) (entity : TypeId) :
    WellIndexed ⟨table, entity, [], .empty, .empty⟩ where
  places i f h := by simp at h
  names name := rfl
  columns column i := by simp [Index.get?, Index.empty]

/-- A field with a column of its own is indexed when it is put at the end. -/
theorem WellIndexed.push (h : m.WellIndexed) {f : Field} (hplace : f.place = m.fields.length)
    (hfree : ∀ g ∈ m.fields, g.column ≠ f.column) : (m.push f).WellIndexed where
  places i g hg := by
    rcases getElem?_concat_eq_some_iff.mp hg with hg | ⟨rfl, rfl⟩
    · exact h.places i g hg
    · exact hplace
  names name := by
    have hfield : (m.push f).plain.field? name = if f.name = name then some f else m.plain.field? name := by
      unfold IndexedModel.push plain Model.field?
      by_cases hname : f.name = name <;> simp [hname]
    rw [hfield]
    show (m.byField.insert f.name m.fields.length).get? name = _
    rw [Index.get?_insert, h.names]
    by_cases hname : name = f.name
    · simp [hname, hplace]
    · have hname' : f.name ≠ name := fun heq => hname heq.symm
      simp [hname, hname']
  columns column i := by
    show (m.byColumn.insert f.column m.fields.length).get? column = some i ↔
      ∃ g, (m.fields ++ [f])[i]? = some g ∧ g.column = column
    rw [Index.get?_insert]
    by_cases hcolumn : column = f.column
    · subst hcolumn
      rw [if_pos rfl]
      constructor
      · intro hi
        cases hi
        exact ⟨f, getElem?_concat_eq_some_iff.mpr (.inr ⟨rfl, rfl⟩), rfl⟩
      · rintro ⟨g, hg, hcolumn⟩
        rcases getElem?_concat_eq_some_iff.mp hg with hg | ⟨rfl, -⟩
        · exact absurd hcolumn (hfree g (List.mem_of_getElem? hg))
        · rfl
    · rw [if_neg hcolumn, h.columns]
      constructor
      · rintro ⟨g, hg, hg'⟩
        exact ⟨g, getElem?_concat_eq_some_iff.mpr (.inl hg), hg'⟩
      · rintro ⟨g, hg, hg'⟩
        rcases getElem?_concat_eq_some_iff.mp hg with hg | ⟨-, rfl⟩
        · exact ⟨g, hg, hg'⟩
        · exact absurd hg'.symm hcolumn

/-- Renaming a column by its place is renaming it in the plain model. -/
theorem WellIndexed.plain_rename (h : m.WellIndexed) (place : Nat) (column : String) :
    (m.rename place column).plain = m.plain.setColumn place column := by
  unfold IndexedModel.rename
  cases hf : m.fields[place]? with
  | none =>
    have hsame : m.fields.map (fun f => if f.place = place then { f with column } else f) = m.fields := by
      refine (List.map_congr_left fun g hg => ?_).trans (List.map_id _)
      refine if_neg fun hplace => ?_
      cases (hplace ▸ h.getElem?_place hg).symm.trans hf
    exact congrArg (fun fields => Model.mk m.table m.entity fields) hsame.symm
  | some f =>
    refine congrArg (fun fields => Model.mk m.table m.entity fields) ?_
    refine List.ext_getElem? fun i => ?_
    rw [List.getElem?_set]
    by_cases hi : place = i
    · subst hi
      obtain ⟨hlt, hvalue⟩ := List.getElem?_eq_some_iff.mp hf
      simp [plain, hlt, hvalue, h.places place f hf]
    · cases hg : m.fields[i]? with
      | none => simp [hi, plain, hg]
      | some g =>
        have hg' : g.place ≠ place := fun hplace => hi (hplace.symm.trans (h.places i g hg))
        simp [hi, plain, hg, hg']

private theorem field?_setColumn (m : Model) (place : Nat) (column name : String) :
    (m.setColumn place column).field? name =
      (m.field? name).map fun f => if f.place = place then { f with column } else f := by
  unfold Model.setColumn Model.field?
  rw [← List.map_reverse, List.find?_map]
  have hsame : ((fun f : Field => f.name == name) ∘ fun f => if f.place = place then { f with column } else f) =
      fun f => f.name == name := by
    funext f
    rw [Function.comp_apply]
    split <;> rfl
  rw [hsame]

/-- The new column leads to the place, the old one nowhere, and every other one where it led before. -/
theorem WellIndexed.columns_set (h : m.WellIndexed) {place : Nat} {column : String} {f : Field}
    (hf : m.fields[place]? = some f) (hfree : ∀ i, m.byColumn.get? column = some i → i = place)
    (other : String) (i : Nat) :
    ((m.byColumn.erase f.column).insert column place).get? other = some i ↔
      ∃ g : Field, (m.fields.set place { f with column })[i]? = some g ∧ g.column = other := by
  rw [Index.get?_insert, Index.get?_erase]
  by_cases hnew : other = column
  · subst hnew
    rw [if_pos rfl]
    constructor
    · intro hi
      cases hi
      exact ⟨_, (getElem?_set_eq_some_iff hf).mpr (.inl ⟨rfl, rfl⟩), rfl⟩
    · rintro ⟨g, hg, hcolumn⟩
      rcases (getElem?_set_eq_some_iff hf).mp hg with ⟨rfl, -⟩ | ⟨-, hg⟩
      · rfl
      · exact congrArg some (hfree i ((h.columns other i).mpr ⟨g, hg, hcolumn⟩)).symm
  · rw [if_neg hnew]
    by_cases hold : other = f.column
    · subst hold
      rw [if_pos rfl]
      refine ⟨nofun, ?_⟩
      rintro ⟨g, hg, hcolumn⟩
      rcases (getElem?_set_eq_some_iff hf).mp hg with ⟨-, rfl⟩ | ⟨hi, hg⟩
      · exact absurd hcolumn.symm hnew
      · have hthere := (h.columns f.column i).mpr ⟨g, hg, hcolumn⟩
        have hhere := (h.columns f.column place).mpr ⟨f, hf, rfl⟩
        exact absurd (Option.some.inj (hthere.symm.trans hhere)) hi
    · rw [if_neg hold, h.columns]
      constructor
      · rintro ⟨g, hg, hcolumn⟩
        have hi : i ≠ place := by
          rintro rfl
          cases hf.symm.trans hg
          exact hold hcolumn.symm
        exact ⟨g, (getElem?_set_eq_some_iff hf).mpr (.inr ⟨hi, hg⟩), hcolumn⟩
      · rintro ⟨g, hg, hcolumn⟩
        rcases (getElem?_set_eq_some_iff hf).mp hg with ⟨-, rfl⟩ | ⟨-, hg⟩
        · exact absurd hcolumn.symm hnew
        · exact ⟨g, hg, hcolumn⟩

/-- A field takes a column that no other field has. -/
theorem WellIndexed.rename (h : m.WellIndexed) {place : Nat} {column : String}
    (hfree : ∀ i, m.byColumn.get? column = some i → i = place) : (m.rename place column).WellIndexed := by
  have hplain := h.plain_rename place column
  unfold IndexedModel.rename at hplain ⊢
  cases hf : m.fields[place]? with
  | none => exact h
  | some f =>
    rw [hf] at hplain
    refine { places := fun i g hg => ?_, names := fun name => ?_, columns := h.columns_set hf hfree }
    · rcases (getElem?_set_eq_some_iff hf).mp hg with ⟨rfl, rfl⟩ | ⟨-, hg⟩
      · exact h.places i f hf
      · exact h.places i g hg
    · rw [hplain, field?_setColumn, Option.map_map]
      show m.byField.get? name = _
      rw [h.names]
      refine congrArg (fun place => (m.plain.field? name).map place) ?_
      funext g
      rw [Function.comp_apply]
      split <;> rfl

/-- What an option does to an indexed model: nothing if it fails, else it names the table or renames one
column to one that no other field has. -/
theorem apply_cases (m : IndexedModel) (option : ModelOption) :
    (∃ e, m.apply option = (.error e, m)) ∨
      (∃ name, m.apply option = (.ok (), { m with table := name })) ∨
      ∃ place column, m.apply option = (.ok (), m.rename place column) ∧
        ∀ i, m.byColumn.get? column = some i → i = place := by
  cases option with
  | table name =>
    rw [apply]
    split
    · exact .inl ⟨_, rfl⟩
    · exact .inr (.inl ⟨name, rfl⟩)
  | column field column =>
    rw [apply]
    split
    · exact .inl ⟨_, rfl⟩
    split
    · exact .inl ⟨_, rfl⟩
    rename_i place _
    split
    · rename_i hnone
      exact .inr (.inr ⟨place, column, rfl, fun i hi => nomatch hnone.symm.trans hi⟩)
    · rename_i other hother
      split
      · rename_i hsame
        refine .inr (.inr ⟨place, column, rfl, fun i hi => ?_⟩)
        exact (Option.some.inj (hi.symm.trans hother)).trans hsame
      · exact .inl ⟨_, rfl⟩

private theorem WellIndexed.apply (h : m.WellIndexed) (option : ModelOption) : (m.apply option).2.WellIndexed := by
  rcases m.apply_cases option with ⟨e, heq⟩ | ⟨name, heq⟩ | ⟨place, column, heq, hfree⟩
  · rw [heq]
    exact h
  · rw [heq]
    exact { h with }
  · rw [heq]
    exact h.rename hfree

/-- An option that fails leaves the model as it is. -/
theorem apply_error {option : ModelOption} {e : Error} (h : (m.apply option).1 = .error e) :
    (m.apply option).2 = m := by
  rcases m.apply_cases option with ⟨e, heq⟩ | ⟨name, heq⟩ | ⟨place, column, heq, -⟩
  · rw [heq]
  · rw [heq] at h
    cases h
  · rw [heq] at h
    cases h

private theorem declared_rename (m : IndexedModel) (place : Nat) (column : String) :
    (m.rename place column).fields.map Field.declared = m.fields.map Field.declared := by
  unfold rename
  cases hf : m.fields[place]? with
  | none => rfl
  | some f =>
    refine List.ext_getElem? fun i => ?_
    show ((m.fields.set place { f with column }).map Field.declared)[i]? = _
    rw [List.getElem?_map, List.getElem?_map, List.getElem?_set]
    by_cases hi : place = i
    · subst hi
      obtain ⟨hlt, hvalue⟩ := List.getElem?_eq_some_iff.mp hf
      simp [hlt, hvalue, Field.declared]
    · simp [hi]

private theorem declared_apply (m : IndexedModel) (option : ModelOption) :
    (m.apply option).2.fields.map Field.declared = m.fields.map Field.declared := by
  rcases m.apply_cases option with ⟨e, heq⟩ | ⟨name, heq⟩ | ⟨place, column, heq, -⟩
  · rw [heq]
  · rw [heq]
  · rw [heq]
    exact m.declared_rename place column

/-- Options keep the declared fields and their indexes, whether they succeed or fail. -/
theorem WellIndexed.run (h : m.WellIndexed) (options : List ModelOption) :
    (m.run options).WellIndexed ∧ (m.run options).fields.map Field.declared = m.fields.map Field.declared := by
  induction options generalizing m with
  | nil => exact ⟨h, rfl⟩
  | cons option rest ih =>
    obtain ⟨hrun, hdeclared⟩ := ih (h.apply option)
    exact ⟨hrun, hdeclared.trans (m.declared_apply option)⟩

private theorem WellIndexed.pushAll {size : Nat} {infos : List FieldInfo} (h : m.WellIndexed)
    (hm : m.pushAll size infos = .ok m') : m'.WellIndexed ∧
      m'.fields.map Field.declared = m.fields.map Field.declared ++ infos.map FieldInfo.declared := by
  induction infos generalizing m with
  | nil =>
    cases hm
    exact ⟨h, (List.append_nil _).symm⟩
  | cons info rest ih =>
    rw [IndexedModel.pushAll] at hm
    split at hm
    · cases hm
    split at hm
    · cases hm
    split at hm
    · cases hm
    rename_i column _ _ hnone
    have hfree : ∀ g ∈ m.fields, g.column ≠ column := by
      intro g hg hcolumn
      cases hnone.symm.trans ((h.column?_eq_some_iff column g).mpr ⟨hg, hcolumn⟩)
    obtain ⟨hwell, hdeclared⟩ := ih (h.push rfl hfree) hm
    refine ⟨hwell, hdeclared.trans ?_⟩
    simp [IndexedModel.push, Field.declared, FieldInfo.declared]

private theorem wellIndexed_ofStruct {info : StructInfo} (hm : ofStruct info = .ok m) : m.WellIndexed ∧
    m.fields.map Field.declared = info.fields.map FieldInfo.declared :=
  (wellIndexed_empty _ _).pushAll hm

/-- With distinct names, a name leads to the one field that has it. -/
theorem WellIndexed.byField_eq_some_iff (h : m.WellIndexed) (hnames : (m.fields.map Field.name).Nodup)
    (name : String) (i : Nat) :
    m.byField.get? name = some i ↔ ∃ f : Field, m.fields[i]? = some f ∧ f.name = name := by
  rw [h.names]
  constructor
  · intro hi
    obtain ⟨f, hf, rfl⟩ := Option.map_eq_some_iff.mp hi
    exact ⟨f, h.getElem?_place (Model.mem_of_field? hf), Model.name_of_field? hf⟩
  · rintro ⟨f, hf, rfl⟩
    have hlt : i < (m.fields.map Field.name).length := by
      rw [List.length_map]
      exact (List.getElem?_eq_some_iff.mp hf).1
    obtain ⟨g, hg⟩ := Model.exists_field? (m := m.plain) (List.mem_of_getElem? hf)
    have hplace := h.getElem?_place (Model.mem_of_field? hg)
    have hsame : (m.fields.map Field.name)[i]? = (m.fields.map Field.name)[g.place]? := by
      rw [List.getElem?_map, List.getElem?_map, hf, hplace]
      exact congrArg some (Model.name_of_field? hg).symm
    rw [hg, (List.getElem?_inj hlt hnames).mp hsame]
    rfl

private theorem names_of_declared {fields : List Field} {infos : List FieldInfo}
    (h : fields.map Field.declared = infos.map FieldInfo.declared) :
    fields.map Field.name = infos.map FieldInfo.name := by
  have hfirst := congrArg (List.map Prod.fst) h
  rw [List.map_map, List.map_map] at hfirst
  exact hfirst

private theorem field?_eq_some_iff (h : m.WellIndexed) (hnames : (m.fields.map Field.name).Nodup) (name : String)
    (f : Field) : m.field? name = some f ↔ f ∈ m.fields ∧ f.name = name := by
  rw [h.field?_eq]
  constructor
  · exact fun hf => ⟨Model.mem_of_field? hf, Model.name_of_field? hf⟩
  · rintro ⟨hf, hname⟩
    have hi := (h.byField_eq_some_iff hnames name f.place).mpr ⟨f, h.getElem?_place hf, hname⟩
    rw [← h.field?_eq, IndexedModel.field?, hi]
    exact h.getElem?_place hf

/-- After any options, the fields are the declared ones in their order, and both indexes lead to the fields
as they are now. -/
theorem indexes_run {info : TypeInfo} {declared : StructInfo}
    (hinfo : info = .struct declared ∨ info = .pointer (.struct declared))
    (hnames : (declared.fields.map FieldInfo.name).Nodup) (hm : parse info = .ok m)
    (options : List ModelOption) :
    let after := m.run options
    after.fields.map Field.declared = declared.fields.map FieldInfo.declared ∧
      (after.fields.map Field.column).Nodup ∧
      (∀ name i, after.byField.get? name = some i ↔ ∃ f : Field, after.fields[i]? = some f ∧ f.name = name) ∧
      (∀ column i,
        after.byColumn.get? column = some i ↔ ∃ f : Field, after.fields[i]? = some f ∧ f.column = column) ∧
      (∀ name f, after.field? name = some f ↔ f ∈ after.fields ∧ f.name = name) ∧
      (∀ column f, after.column? column = some f ↔ f ∈ after.fields ∧ f.column = column) ∧
      ∀ option e, (after.apply option).1 = .error e → (after.apply option).2 = after := by
  have hparsed : m.WellIndexed ∧ m.fields.map Field.declared = declared.fields.map FieldInfo.declared := by
    rcases hinfo with rfl | rfl <;> exact wellIndexed_ofStruct hm
  obtain ⟨hafter, hkept⟩ := hparsed.1.run options
  have hdeclared := hkept.trans hparsed.2
  have hnodup : ((m.run options).fields.map Field.name).Nodup := by
    rw [names_of_declared hdeclared]
    exact hnames
  exact ⟨hdeclared, hafter.columns_nodup, hafter.byField_eq_some_iff hnodup, hafter.columns,
    field?_eq_some_iff hafter hnodup, hafter.column?_eq_some_iff, fun option e => apply_error⟩

/-- Renaming to the own column, to a fresh one, to one in use and to one that was given up. -/
theorem indexes_run_renames :
    let info : StructInfo :=
      ⟨"Note", .named "Note", 16, none, [⟨"a", none, 0, 8, ⟨.integer .i64⟩⟩, ⟨"b", none, 8, 8, ⟨.integer .i64⟩⟩]⟩
    ∃ m : IndexedModel, parse (.struct info) = .ok m ∧
      let after := m.run [.column "a" "a", .column "a" "x", .column "b" "x", .column "b" "a"]
      after.fields.map Field.column = ["x", "a"] ∧ after.byColumn.get? "b" = none ∧
        ∃ f : Field, after.fields[1]? = some f ∧ f.column = "a" := by
  intro info
  have hinfo : TypeInfo.struct info = .struct info ∨ TypeInfo.struct info = .pointer (.struct info) := .inl rfl
  refine ⟨_, rfl, by decide, by decide, ?_⟩
  exact ((indexes_run hinfo (by decide) rfl _).2.2.2.1 "a" 1).mp (by decide)

/-- An option does to an indexed model what it does to the plain one. -/
theorem plain_apply (h : m.WellIndexed) (option : ModelOption) :
    m.plain.apply option = (m.apply option).1.map fun _ => (m.apply option).2.plain := by
  cases option with
  | table name =>
    rw [apply, Model.apply]
    split <;> rfl
  | column field column =>
    rw [apply, Model.apply]
    by_cases hempty : column.isEmpty
    · rw [if_pos hempty, if_pos hempty]
      rfl
    rw [if_neg hempty, if_neg hempty, h.names]
    cases hf : m.plain.field? field with
    | none => rfl
    | some f =>
      rw [← h.column?_eq, Option.map_some]
      cases hi : m.byColumn.get? column with
      | none =>
        have hnone : m.column? column = none := by rw [IndexedModel.column?, hi]; rfl
        rw [hnone]
        exact congrArg Except.ok (h.plain_rename f.place column).symm
      | some i =>
        obtain ⟨g, hg, -⟩ := (h.columns column i).mp hi
        have hsome : m.column? column = some g := by rw [IndexedModel.column?, hi]; exact hg
        rw [hsome]
        by_cases hsame : i = f.place
        · simp only [h.places i g hg, hsame, if_true]
          exact congrArg Except.ok (h.plain_rename f.place column).symm
        · simp only [h.places i g hg, hsame, if_false, hg]
          rfl

private theorem fields_foldl_push (fields : List Field) : (fields.foldl push m).fields = m.fields ++ fields := by
  induction fields generalizing m with
  | nil => exact (List.append_nil _).symm
  | cons f rest ih =>
    rw [List.foldl_cons, ih]
    simp [push]

private theorem pushAll_eq {size : Nat} {infos : List FieldInfo} {before : List Field} {table : String}
    {entity : TypeId} (h : (ofModel ⟨table, entity, before⟩).WellIndexed) :
    (ofModel ⟨table, entity, before⟩).pushAll size infos =
      (Model.mapFields size before infos).map fun fields => ofModel ⟨table, entity, fields⟩ := by
  have hfields {before : List Field} : (ofModel ⟨table, entity, before⟩).fields = before :=
    fields_foldl_push before
  induction infos generalizing before with
  | nil => rfl
  | cons info rest ih =>
    rw [pushAll, Model.mapFields]
    by_cases hsize : size < info.offset + info.size
    · rw [if_pos hsize, if_pos hsize]
      rfl
    rw [if_neg hsize, if_neg hsize]
    cases hcolumn : Model.columnOf info with
    | error e => rfl
    | ok column =>
      have hfind : (ofModel ⟨table, entity, before⟩).column? column = before.find? (·.column == column) := by
        rw [h.column?_eq, plain, hfields]
        rfl
      simp only [hfind, hfields]
      cases hother : before.find? (·.column == column) with
      | some other => rfl
      | none =>
        have hfree : ∀ g ∈ (ofModel ⟨table, entity, before⟩).fields, g.column ≠ column := by
          rw [hfields]
          simpa using hother
        have hplace : before.length = (ofModel ⟨table, entity, before⟩).fields.length := by rw [hfields]
        have hpush (f : Field) : (ofModel ⟨table, entity, before⟩).push f =
            ofModel ⟨table, entity, before ++ [f]⟩ := by simp [ofModel]
        have hnext := h.push (f := ⟨info.name, column, info.offset, info.size, info.raw, before.length⟩) hplace hfree
        rw [hpush] at hnext
        simp only [hpush]
        exact ih hnext

/-- What metadata describes is the same with indexes and without. -/
theorem ofStruct_eq (info : StructInfo) : ofStruct info = (Model.ofStruct info).map ofModel := by
  have hempty : (ofModel ⟨info.table.getD (Text.snakeCaseName info.name), info.id, []⟩).WellIndexed :=
    wellIndexed_empty _ _
  refine (pushAll_eq hempty).trans ?_
  unfold Model.ofStruct
  cases Model.mapFields info.size [] info.fields <;> rfl

private theorem parse_eq (info : TypeInfo) : parse info = (Model.parse info).map ofModel := by
  cases info with
  | struct info => exact ofStruct_eq info
  | other => rfl
  | pointer target =>
    cases target with
    | struct info => exact ofStruct_eq info
    | pointer target => rfl
    | other => rfl

end IndexedModel

theorem Registry.indexed_eq (r : Registry) (schema : Schema) (t : TypeId) :
    r.indexed schema t = (r.view schema t).map IndexedModel.ofModel := by
  unfold Registry.indexed Registry.view
  cases hcached : r.cached? t with
  | some m => rfl
  | none =>
    unfold Schema.parse
    cases hreport : schema.report t with
    | struct info =>
      by_cases hid : info.id = t
      · simp only [hid, if_true]
        exact IndexedModel.ofStruct_eq info
      · simp only [hid, if_false]
        rfl
    | pointer target => exact IndexedModel.parse_eq _
    | other => rfl

end EntitySql
