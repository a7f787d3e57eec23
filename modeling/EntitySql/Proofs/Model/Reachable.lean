import EntitySql.Model.Registry

namespace EntitySql.Model

/-- The models that the metadata of a type and options lead to. -/
inductive Reachable : Model → Prop where
  | parse {info : TypeInfo} {m : Model} (h : Model.parse info = .ok m) : Reachable m
  | apply {m m' : Model} {option : ModelOption} (hm : Reachable m) (h : m.apply option = .ok m') :
    Reachable m'

/-- Fields of which no two have one column or one place. -/
structure Apart (fields : List Field) : Prop where
  columns : fields.Pairwise fun f g => f.column ≠ g.column
  places : fields.Pairwise fun f g => f.place ≠ g.place

namespace Apart

variable {fields : List Field}

private theorem eq_of_key {α : Type} {key : Field → α} (h : fields.Pairwise fun f g => key f ≠ key g) {f g : Field}
    (hf : f ∈ fields) (hg : g ∈ fields) (hk : key f = key g) : f = g := by
  have hpair : fields.Pairwise fun f g => key f = key g → f = g :=
    h.imp fun hne heq => absurd heq hne
  have hflip : fields.Pairwise (flip fun f g => key f = key g → f = g) :=
    h.imp fun hne heq => absurd heq.symm hne
  exact hpair.forall_of_forall_of_flip (fun _ _ _ => rfl) hflip hf hg hk

theorem eq_of_column (h : Apart fields) {f g : Field} (hf : f ∈ fields) (hg : g ∈ fields)
    (hc : f.column = g.column) : f = g := eq_of_key h.columns hf hg hc

theorem eq_of_place (h : Apart fields) {f g : Field} (hf : f ∈ fields) (hg : g ∈ fields)
    (hp : f.place = g.place) : f = g := eq_of_key h.places hf hg hp

/-- Another column for the field in a place, which no field in another place has. -/
theorem setColumn (h : Apart fields) {place : Nat} {column : String}
    (hfree : ∀ f ∈ fields, f.column = column → f.place = place) :
    Apart (fields.map fun f => if f.place = place then { f with column } else f) := by
  refine ⟨?_, ?_⟩
  · rw [List.pairwise_map]
    have hboth := h.columns.and h.places
    refine hboth.imp_of_mem fun {f g} hf hg hfg => ?_
    obtain ⟨hcolumn, hplace⟩ := hfg
    by_cases hfp : f.place = place
    · have hgp : g.place ≠ place := fun hgp => hplace (hfp.trans hgp.symm)
      simp only [hfp, hgp, if_true, if_false]
      intro hc
      exact hgp (hfree g hg hc.symm)
    · by_cases hgp : g.place = place
      · simp only [hfp, hgp, if_true, if_false]
        intro hc
        exact hfp (hfree f hf hc)
      · simpa only [hfp, hgp, if_false] using hcolumn
  · rw [List.pairwise_map]
    have hsame (f : Field) : (if f.place = place then { f with column } else f).place = f.place := by
      split <;> rfl
    simpa only [hsame] using h.places

end Apart

private theorem apart_mapFields {size : Nat} : ∀ {infos : List FieldInfo} {before fields : List Field},
    Apart before → (∀ f ∈ before, f.place < before.length) →
    mapFields size before infos = .ok fields → Apart fields
  | [], before, fields, hbefore, _, h => by
    cases h
    exact hbefore
  | info :: rest, before, fields, hbefore, hplaces, h => by
    rw [mapFields] at h
    split at h
    · cases h
    split at h
    · cases h
    rename_i column hcolumn
    split at h
    · cases h
    rename_i hnone
    have hfree : ∀ f ∈ before, f.column ≠ column := by simpa using hnone
    have hlast : ∀ f ∈ before, f.place ≠ before.length := fun f hf => Nat.ne_of_lt (hplaces f hf)
    -- The next place is the number of fields so far, so it is greater than every place before.
    refine apart_mapFields ?_ ?_ h
    · refine ⟨List.pairwise_append.mpr ⟨hbefore.columns, List.pairwise_singleton _ _, ?_⟩,
        List.pairwise_append.mpr ⟨hbefore.places, List.pairwise_singleton _ _, ?_⟩⟩
      · intro f hf g hg
        rw [List.mem_singleton.mp hg]
        exact hfree f hf
      · intro f hf g hg
        rw [List.mem_singleton.mp hg]
        exact hlast f hf
    · intro f hf
      rw [List.length_append, List.length_singleton]
      rcases List.mem_append.mp hf with hf | hf
      · exact Nat.lt_succ_of_lt (hplaces f hf)
      · rw [List.mem_singleton.mp hf]
        exact Nat.lt_succ_self _

private theorem apart_ofStruct {info : StructInfo} {m : Model} (h : ofStruct info = .ok m) :
    Apart m.fields := by
  unfold ofStruct at h
  split at h
  · cases h
  rename_i fields hfields
  cases h
  exact apart_mapFields ⟨.nil, .nil⟩ (fun f hf => absurd hf List.not_mem_nil) hfields

private theorem apart_parse {info : TypeInfo} {m : Model} (h : Model.parse info = .ok m) :
    Apart m.fields := by
  unfold Model.parse at h
  split at h
  · exact apart_ofStruct h
  · exact apart_ofStruct h
  · cases h

/-- What an option that succeeds does: it names the table, or renames one column to one that no field in
another place has. -/
theorem apply_cases {m m' : Model} {option : ModelOption} (h : m.apply option = .ok m') :
    (∃ name, m' = { m with table := name }) ∨
      ∃ place column, m' = m.setColumn place column ∧
        ∀ other, m.column? column = some other → other.place = place := by
  cases option with
  | table name =>
    rw [Model.apply] at h
    split at h
    · cases h
    · cases h
      exact .inl ⟨name, rfl⟩
  | column field column =>
    rw [Model.apply] at h
    split at h
    · cases h
    split at h
    · cases h
    rename_i f _
    split at h
    · rename_i hnone
      cases h
      exact .inr ⟨f.place, column, rfl, fun other hother => nomatch hnone.symm.trans hother⟩
    · rename_i other hother
      split at h
      · rename_i hplace
        cases h
        refine .inr ⟨f.place, column, rfl, fun other' hother' => ?_⟩
        cases hother.symm.trans hother'
        exact hplace
      · cases h

private theorem apart_apply {m m' : Model} {option : ModelOption} (hm : Apart m.fields)
    (h : m.apply option = .ok m') : Apart m'.fields := by
  rcases apply_cases h with ⟨name, rfl⟩ | ⟨place, column, rfl, hfree⟩
  · exact hm
  · refine hm.setColumn fun g hg hcolumn => ?_
    obtain ⟨other, hother⟩ : ∃ other, m.column? column = some other := by
      refine Option.isSome_iff_exists.mp (List.find?_isSome.mpr ⟨g, hg, ?_⟩)
      exact beq_iff_eq.mpr hcolumn
    have hcolumn' : other.column = column := by simpa using List.find?_some hother
    rw [hm.eq_of_column hg (List.mem_of_find?_eq_some hother) (hcolumn.trans hcolumn'.symm)]
    exact hfree other hother

theorem Reachable.apart {m : Model} (h : m.Reachable) : Apart m.fields := by
  induction h with
  | parse h => exact apart_parse h
  | apply hm h ih => exact apart_apply ih h

theorem mem_of_field? {m : Model} {name : String} {f : Field} (hf : m.field? name = some f) :
    f ∈ m.fields := List.mem_reverse.mp (List.mem_of_find?_eq_some hf)

theorem exists_field? {m : Model} {f : Field} (hmem : f ∈ m.fields) : ∃ g, m.field? f.name = some g := by
  cases hnone : m.field? f.name with
  | some g => exact ⟨g, rfl⟩
  | none =>
    have hne := List.find?_eq_none.mp hnone f (List.mem_reverse.mpr hmem)
    simp at hne

/-- The column of a field leads back to the field. -/
theorem column?_of_mem {m : Model} (hm : Apart m.fields) {f : Field} (hmem : f ∈ m.fields) :
    m.column? f.column = some f := by
  unfold column?
  cases hg : m.fields.find? (·.column == f.column) with
  | none =>
    have hne := List.find?_eq_none.mp hg f hmem
    simp at hne
  | some g =>
    have hcolumn : g.column = f.column := by simpa using List.find?_some hg
    rw [hm.eq_of_column (List.mem_of_find?_eq_some hg) hmem hcolumn]

theorem column?_column {m : Model} (hm : Apart m.fields) {name : String} {f : Field}
    (hf : m.field? name = some f) : m.column? f.column = some f := column?_of_mem hm (mem_of_field? hf)

theorem name_of_field? {m : Model} {name : String} {f : Field} (hf : m.field? name = some f) :
    f.name = name := by
  simpa using List.find?_some hf

private theorem reachable_schema {schema : Schema} {t : TypeId} {m : Model} (h : schema.parse t = .ok m) :
    m.Reachable := by
  unfold Schema.parse at h
  split at h
  · split at h
    · rename_i info _ _
      have hparse : Model.parse (.struct info) = .ok m := h
      exact .parse hparse
    · cases h
  · exact .parse h

end EntitySql.Model

namespace EntitySql.Registry

/-- The registries that asking for types and registering them lead to. Metadata may change meanwhile. -/
inductive Reachable : Registry → Prop where
  | empty : Reachable .empty
  | consult {r : Registry} (hr : Reachable r) (schema : Schema) (t : TypeId) :
    Reachable (r.consult schema t)
  | register {r : Registry} (hr : Reachable r) (schema : Schema) (t : TypeId)
    (options : List ModelOption) : Reachable (r.register schema t options)

/-- The registries that metadata of a kind leads to. -/
inductive ReachableBy (P : Schema → Prop) : Registry → Prop where
  | empty : ReachableBy P .empty
  | consult {r : Registry} (hr : ReachableBy P r) {schema : Schema} (hs : P schema) (t : TypeId) :
    ReachableBy P (r.consult schema t)
  | register {r : Registry} (hr : ReachableBy P r) {schema : Schema} (hs : P schema) (t : TypeId)
    (options : List ModelOption) : ReachableBy P (r.register schema t options)

private theorem Reachable.by {r : Registry} (hr : r.Reachable) : r.ReachableBy fun _ => True := by
  induction hr with
  | empty => exact .empty
  | consult hr schema t ih => exact .consult ih trivial t
  | register hr schema t options ih => exact .register ih trivial t options

section

variable {P : Schema → Prop} {Q : TypeId → Model → Prop}

theorem registered_of_parse
    (hparse : ∀ {schema t m}, P schema → schema.parse t = .ok m → Q t m)
    (happly : ∀ {t m m' option}, Q t m → m.apply option = .ok m' → Q t m')
    {schema : Schema} (hs : P schema) {t : TypeId} {options : List ModelOption} {m : Model}
    (h : registered schema t options = .ok m) : Q t m := by
  have hall : ∀ {options : List ModelOption} {m m' : Model},
      Q t m → m.applyAll options = .ok m' → Q t m' := by
    intro options
    induction options with
    | nil =>
      intro m m' hm h
      cases h
      exact hm
    | cons option rest ih =>
      intro m m' hm h
      rw [Model.applyAll] at h
      split at h
      · cases h
      · rename_i hnext
        exact ih (happly hm hnext) h
  unfold registered at h
  split at h
  · cases h
  · rename_i hm
    exact hall (hparse hs hm) h

/-- What parsing gives and options keep holds of every model in a registry. -/
theorem ReachableBy.cached
    (hparse : ∀ {schema t m}, P schema → schema.parse t = .ok m → Q t m)
    (happly : ∀ {t m m' option}, Q t m → m.apply option = .ok m' → Q t m')
    {r : Registry} (hr : r.ReachableBy P) : ∀ t m, r.cached? t = some m → Q t m := by
  have hinsert {r : Registry} (hcached : ∀ t m, r.cached? t = some m → Q t m) {t : TypeId} {m : Model}
      (hm : Q t m) : ∀ u m', (r.insert t m).cached? u = some m' → Q u m' := by
    intro u m' h
    rw [cached?_insert] at h
    split at h
    · rename_i hu
      cases h
      exact hu ▸ hm
    · exact hcached u m' h
  induction hr with
  | empty => intro t m h; cases h
  | consult hr hs t ih =>
    unfold Registry.consult
    split
    · exact ih
    split
    · rename_i hm
      exact hinsert ih (hparse hs hm)
    · exact ih
  | register hr hs t options ih =>
    unfold Registry.register
    split
    · rename_i hm
      exact hinsert ih (registered_of_parse hparse happly hs hm)
    · exact ih

theorem ReachableBy.view
    (hparse : ∀ {schema t m}, P schema → schema.parse t = .ok m → Q t m)
    (happly : ∀ {t m m' option}, Q t m → m.apply option = .ok m' → Q t m')
    {r : Registry} (hr : r.ReachableBy P) {schema : Schema} (hs : P schema) {t : TypeId} {m : Model}
    (h : r.view schema t = .ok m) : Q t m := by
  unfold Registry.view at h
  split at h
  · rename_i hcached
    cases h
    exact hr.cached hparse happly t _ hcached
  · exact hparse hs h

end

/-- Every model that a type has in a registry is reachable. -/
theorem Reachable.view {r : Registry} (hr : r.Reachable) {schema : Schema} {t : TypeId} {m : Model}
    (h : r.view schema t = .ok m) : m.Reachable :=
  hr.by.view (fun _ hm => Model.reachable_schema hm) (fun hm ha => hm.apply ha) trivial h

/-- The models that a registry gives out: on asking for a type and on registering one. -/
def Gives (r : Registry) (schema : Schema) (m : Model) : Prop :=
  (∃ t, r.view schema t = .ok m) ∨ ∃ t options, registered schema t options = .ok m

namespace Gives

variable {P : Schema → Prop} {r : Registry} {schema : Schema} {m : Model}

/-- What parsing gives and options keep holds of every model that is given out. -/
theorem holds {Q : Model → Prop} (hparse : ∀ {schema t m}, P schema → schema.parse t = .ok m → Q m)
    (happly : ∀ {m m' option}, Q m → m.apply option = .ok m' → Q m')
    (hr : r.ReachableBy P) (hs : P schema) (h : r.Gives schema m) : Q m := by
  rcases h with ⟨t, h⟩ | ⟨t, options, h⟩
  · exact hr.view (Q := fun _ m => Q m) hparse happly hs h
  · exact registered_of_parse (Q := fun _ m => Q m) hparse happly hs h

theorem reachable (hr : r.ReachableBy P) (hs : P schema) (h : r.Gives schema m) : m.Reachable :=
  h.holds (fun _ hm => Model.reachable_schema hm) (fun hm ha => hm.apply ha) hr hs

end Gives

end EntitySql.Registry
