import EntitySql.Proofs.Entity.Access

namespace EntitySql

/-- A model was read off a struct that a type reports, directly or behind a pointer. -/
structure Schema.Describes (schema : Schema) (t : TypeId) (m : Model) (info : StructInfo) : Prop where
  report : schema.report t = .struct info ∧ t = info.id ∨ schema.report t = .pointer (.struct info)
  entity : m.entity = info.id
  fields : ∀ f ∈ m.fields, f.offset + f.size ≤ info.size

namespace Model

private theorem within_mapFields {size : Nat} {infos : List FieldInfo} {before fields : List Field}
    (hbefore : ∀ f ∈ before, f.offset + f.size ≤ size) (h : mapFields size before infos = .ok fields) :
    ∀ f ∈ fields, f.offset + f.size ≤ size := by
  induction infos generalizing before with
  | nil =>
    cases h
    exact hbefore
  | cons info rest ih =>
    rw [mapFields] at h
    split at h
    · cases h
    rename_i hsize
    split at h
    · cases h
    split at h
    · cases h
    refine ih ?_ h
    intro f hf
    rcases List.mem_append.mp hf with hf | hf
    · exact hbefore f hf
    · rw [List.mem_singleton.mp hf]
      exact Nat.le_of_not_lt hsize

private theorem within_ofStruct {info : StructInfo} {m : Model} (h : ofStruct info = .ok m) :
    m.entity = info.id ∧ ∀ f ∈ m.fields, f.offset + f.size ≤ info.size := by
  unfold ofStruct at h
  split at h
  · cases h
  rename_i hfields
  cases h
  exact ⟨rfl, within_mapFields (fun f hf => absurd hf List.not_mem_nil) hfields⟩

theorem describes_parse {schema : Schema} {t : TypeId} {m : Model} (h : schema.parse t = .ok m) :
    ∃ info, schema.Describes t m info := by
  unfold Schema.parse at h
  split at h
  · rename_i info hreport
    split at h
    · rename_i hid
      obtain ⟨hentity, hfields⟩ := within_ofStruct h
      exact ⟨info, .inl ⟨hreport, hid.symm⟩, hentity, hfields⟩
    · cases h
  · rename_i hstruct
    cases hreport : schema.report t with
    | struct info => exact absurd hreport (hstruct info)
    | other =>
      rw [hreport] at h
      cases h
    | pointer target =>
      rw [hreport] at h
      cases target with
      | struct info =>
        obtain ⟨hentity, hfields⟩ := within_ofStruct h
        exact ⟨info, .inr hreport, hentity, hfields⟩
      | pointer target => cases h
      | other => cases h

end Model

/-- Options change neither the identity nor the place of a field. -/
theorem Schema.Describes.apply {schema : Schema} {t : TypeId} {m m' : Model} {info : StructInfo}
    {option : ModelOption} (hm : schema.Describes t m info) (h : m.apply option = .ok m') :
    schema.Describes t m' info := by
  rcases Model.apply_cases h with ⟨name, rfl⟩ | ⟨place, column, rfl, -⟩
  · exact { hm with }
  · refine { report := hm.report, entity := hm.entity, fields := fun f hf => ?_ }
    obtain ⟨g, hg, rfl⟩ := List.mem_map.mp hf
    have hwithin := hm.fields g hg
    split <;> exact hwithin

namespace Registry

private theorem describes {schema : Schema} {r : Registry} {t : TypeId} {m : Model} (hr : r.ReachableBy (· = schema))
    (h : r.view schema t = .ok m ∨ ∃ options, registered schema t options = .ok m) :
    ∃ info, schema.Describes t m info := by
  have hparse : ∀ {schema' : Schema} {t : TypeId} {m : Model}, schema' = schema → schema'.parse t = .ok m →
      ∃ info, schema.Describes t m info := by
    intro schema' t m hs hm
    exact Model.describes_parse (hs ▸ hm)
  have happly : ∀ {t : TypeId} {m m' : Model} {option : ModelOption},
      (∃ info, schema.Describes t m info) → m.apply option = .ok m' → ∃ info, schema.Describes t m' info := by
    rintro t m m' option ⟨info, hm⟩ h
    exact ⟨info, hm.apply h⟩
  rcases h with h | ⟨options, h⟩
  · exact hr.view (Q := fun t m => ∃ info, schema.Describes t m info) hparse happly rfl h
  · exact registered_of_parse (Q := fun t m => ∃ info, schema.Describes t m info) hparse happly rfl h

/-- A model that passes for a type has the fields of a struct that bears the identity of the type, all of
them within its size. If the struct is reported directly, it is the type's own; behind a pointer, it is so
if the pointer leads to a type of that identity. -/
theorem identity_of_checked {schema : Schema} {r : Registry} {t u : TypeId} {m : Model}
    (hr : r.ReachableBy (· = schema))
    (h : r.view schema t = .ok m ∨ ∃ options, registered schema t options = .ok m) (hu : m.check u = .ok ()) :
    ∃ info : StructInfo, info.id = u ∧ (∀ f ∈ m.fields, f.offset + f.size ≤ info.size) ∧
      (schema.report t = .struct info ∧ t = u ∨ schema.report t = .pointer (.struct info)) ∧
      ((∀ target, schema.report t = .pointer (.struct target) → t = .boxed target.id) →
        (t = u ∨ t = .boxed u) ∧ schema.report u = .struct info) := by
  obtain ⟨info, hreport, hentity, hfields⟩ := describes hr h
  have hid : info.id = u := hentity.symm.trans (Model.check_eq_ok_iff.mp hu)
  rw [hid] at hreport
  refine ⟨info, hid, hfields, hreport, fun hhonest => ?_⟩
  rcases hreport with ⟨hstruct, rfl⟩ | hpointer
  · exact ⟨.inl rfl, hstruct⟩
  · have hboxed : t = .boxed u := hid ▸ hhonest info hpointer
    subst hboxed
    exact ⟨.inr rfl, TypeInfo.pointer.inj hpointer⟩

theorem identity_of_checked_boxed :
    let note : StructInfo := ⟨"Note", .named "Note", 8, none, [⟨"id", none, 0, 8, ⟨.integer .i64⟩⟩]⟩
    let schema : Schema := fun name => if name = "Note" then .struct note else .other
    ∃ m, empty.view schema (.boxed (.named "Note")) = .ok m ∧ m.check (.named "Note") = .ok () ∧
      ∃ info : StructInfo, schema.report (.named "Note") = .struct info ∧
        ∀ f ∈ m.fields, f.offset + f.size ≤ info.size := by
  intro note schema
  let m : Model := ⟨"note", .named "Note", [⟨"id", "id", 0, 8, ⟨.integer .i64⟩, 0⟩]⟩
  have hview : empty.view schema (.boxed (.named "Note")) = .ok m := by decide +kernel
  have hcheck : m.check (.named "Note") = .ok () := rfl
  obtain ⟨info, -, hfields, -, hown⟩ := identity_of_checked .empty (.inl hview) hcheck
  refine ⟨m, hview, hcheck, info, (hown fun target htarget => ?_).2, hfields⟩
  cases htarget
  rfl

/-- A type that bears the identity of another is refused, but not behind a pointer. Then its fields are
taken for those of the other type, beyond whose end they may lie. -/
theorem foreign_behind_pointer :
    let id : FieldInfo := ⟨"id", none, 0, 8, ⟨.integer .i64⟩⟩
    let schema : Schema := fun name =>
      if name = "TestModel" then .struct ⟨"TestModel", .named "TestModel", 8, none, [id]⟩
      else if name = "ForeignId" then .struct ⟨"ForeignId", .named "TestModel", 0, none, []⟩
      else if name = "Wider" then .struct ⟨"Wider", .named "TestModel", 16, none, [{ id with offset := 8 }]⟩
      else .other
    let e : Entity := ⟨.named "TestModel", 8, [.blank "id" true 0 8 (.integer .i64)]⟩
    empty.view schema (.named "ForeignId") = .error .invalidModelType ∧
      (∃ m, empty.view schema (.boxed (.named "ForeignId")) = .ok m ∧ m.check (.named "TestModel") = .ok () ∧
        m.fields = []) ∧
      ∃ m, empty.view schema (.boxed (.named "Wider")) = .ok m ∧ m.check (.named "TestModel") = .ok () ∧
        Access.byOffset.read m e "id" = .error .stray := by
  intro id schema e
  exact ⟨rfl, ⟨_, rfl, rfl, rfl⟩, _, rfl, rfl, by decide +kernel⟩

end Registry

end EntitySql
