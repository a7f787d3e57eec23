import EntitySql.Proofs.Entity.RoundTrip
import EntitySql.Proofs.Model.Identity
import EntitySql.Proofs.Sql.Condition
import EntitySql.Proofs.Sql.Refusal

namespace EntitySql

/-- Metadata that comes from the declaration of an entity: the type reports a struct of its own, with the
fields of the entity. -/
structure Schema.Derives (schema : Schema) (e : Entity) : Prop where
  upholds : schema.Upholds e
  own : ∃ info, schema.report e.type = .struct info

private theorem Schema.Derives.entity_of_parse {schema : Schema} {e : Entity} {m : Model} (hs : schema.Derives e)
    (h : schema.parse e.type = .ok m) : m.entity = e.type := by
  obtain ⟨info, hinfo⟩ := hs.own
  obtain ⟨info', hdescribes⟩ := Model.describes_parse h
  rcases hdescribes.report with ⟨-, htype⟩ | hpointer
  · rw [hdescribes.entity, htype]
  · rw [hinfo] at hpointer
    cases hpointer

/-- All fields of the table of an entity can be read. -/
theorem Registry.read_of_derives {P : Schema → Prop} {e : Entity} (hP : ∀ {s : Schema}, P s → s.Derives e)
    {r : Registry} (hr : r.ReachableBy P) {schema : Schema} (hs : P schema) (he : e.Derived) {m : Model}
    (h : r.view schema e.type = .ok m) (a : Access) {f : Field} (hf : f ∈ m.fields) :
    a.read m e f.name = .ok (e.valueOf f) := by
  have hparse {s : Schema} {t : TypeId} {m : Model} (hs : P s) (hm : s.parse t = .ok m) :
      m.Fits e ∧ (t = e.type → m.entity = e.type) := by
    refine ⟨Model.fits_parse (hP hs).upholds hm, ?_⟩
    rintro rfl
    exact (hP hs).entity_of_parse hm
  have happly {t : TypeId} {m m' : Model} {option : ModelOption}
      (hm : m.Fits e ∧ (t = e.type → m.entity = e.type)) (h : m.apply option = .ok m') :
      m'.Fits e ∧ (t = e.type → m'.entity = e.type) := by
    refine ⟨hm.1.apply h, fun ht => ?_⟩
    rcases Model.apply_cases h with ⟨name, rfl⟩ | ⟨place, column, rfl, -⟩ <;> exact hm.2 ht
  obtain ⟨hfits, hentity⟩ := hr.view (Q := fun t m => m.Fits e ∧ (t = e.type → m.entity = e.type))
    hparse happly hs h
  exact a.read_of_mem he hfits (hentity rfl) hf

/-- A registry never fails for an unknown field. -/
theorem Registry.faithful_view (r : Registry) (schema : Schema) : Sql.Faithful (r.view schema) := by
  intro t field h
  rcases ofModel_view h with h | ⟨detail, h⟩ <;> cases h

/-- The demands of the value that is assigned where a source is in scope. -/
def Assignable.demands (scope : TableRef) : Assignable → List Demand
  | assign _ value => value.demands scope
  | copy _ => []

/-- The demands of a command. Outside of queries its own table is in scope. -/
def Command.demands : Command → List Demand
  | .select s => s.query.demands
  | .insert i =>
    .model i.entity ::
      i.onConflict.toList.flatMap fun oc => oc.assigns.flatMap (·.demands (.table ⟨i.entity, none⟩))
  | .update u =>
    .model u.entity ::
      (u.assigns.flatMap (·.demands (.table ⟨u.entity, none⟩)) ++
        Predicate.demandsAll (.table ⟨u.entity, none⟩) u.conditions)
  | .delete d => .model d.entity :: Predicate.demandsAll (.table ⟨d.entity, none⟩) d.conditions
  | .raw _ => []

def Assignable.field : Assignable → String
  | assign field _ | copy field => field

def Sql.HasField (lookup : TypeId → Except Error Model) (t : TypeId) (field : String) : Prop :=
  ∃ m, lookup t = .ok m ∧ (m.field? field).isSome = true

/-- What a dialect takes as an upsert into a table with fields. -/
structure OnConflict.Taken (d : Dialect) (has : String → Prop) (oc : OnConflict) : Prop where
  dialect : d ≠ .standard
  mysql : d = .mysql → oc.assigns ≠ []
  postgres : d = .postgres →
    (oc.targets ≠ [] ∧ ∀ field ∈ oc.targets, has field) ∨ (oc.targets = [] ∧ oc.assigns = [])
  assigned : ∀ a ∈ oc.assigns, has a.field

private theorem Dialect.ne_of_name {d d' : Dialect} (h : d.name ≠ d'.name) : d ≠ d' := mt (congrArg name) h

namespace Compiler

variable (c : Compiler)

def Obeys : Command → Prop
  | .select s => s.refused = none
  | .insert i =>
    i.rows ≠ [] ∧ (∀ field ∈ i.fields, Sql.HasField c.lookup i.entity field) ∧
      ∀ oc ∈ i.onConflict, oc.Taken c.dialect (Sql.HasField c.lookup i.entity)
  | .update u =>
    u.assigns ≠ [] ∧ ∀ a ∈ u.assigns, Sql.HasField c.lookup u.entity a.field ∧
      ∀ field, a = .copy field → ∃ e, u.source = some e
  | .delete _ => True
  | .raw _ => True

structure WellFormed (cmd : Command) : Prop where
  models : ∀ d ∈ cmd.demands, ∀ t ∈ d.asked c.lookup, ∃ m, c.lookup t = .ok m
  /-- All columns are found in the sources that they refer to. -/
  columns : ∀ field source, .column field source ∈ cmd.demands →
    ∃ place ∈ source.candidates field, place.knows c.lookup field = true
  groups : ∀ q, .groups q ∈ cmd.demands → q.having ≠ [] → q.groupBy ≠ []
  rules : c.Obeys cmd

end Compiler

section

variable {lookup : TypeId → Except Error Model}

private theorem Sql.firstError_eq_none_iff {ts : List TypeId} :
    firstError lookup ts = none ↔ ∀ t ∈ ts, ∃ m, lookup t = .ok m := by
  rw [firstError, List.findSome?_eq_none_iff]
  refine forall₂_congr fun t _ => ?_
  cases lookup t <;> simp

private theorem Demand.failure?_model_eq_none_iff {t : TypeId} :
    (model t).failure? lookup = none ↔ ∀ u ∈ (model t).asked lookup, ∃ m, lookup u = .ok m :=
  Sql.firstError_eq_none_iff

private theorem Demand.failure?_column_eq_none_iff {field : String} {source : TableRef} :
    (column field source).failure? lookup = none ↔
      (∀ t ∈ (column field source).asked lookup, ∃ m, lookup t = .ok m) ∧
        ∃ place ∈ source.candidates field, place.knows lookup field = true := by
  rw [asked, ← Sql.firstError_eq_none_iff, failure?]
  cases Sql.firstError lookup (Candidate.asked lookup field (source.candidates field)) <;> simp

private theorem Demand.failure?_groups_eq_none_iff {q : Query} :
    (groups q).failure? lookup = none ↔ (q.having ≠ [] → q.groupBy ≠ []) := by
  cases hh : q.having <;> cases hg : q.groupBy <;> simp [failure?, hh, hg]

private theorem Condition.failure?_field_eq_none_iff {t : TypeId} {name : String} :
    (field t name).failure? lookup = none ↔ Sql.HasField lookup t name := by
  cases hm : lookup t <;> simp [failure?, Sql.HasField, hm, Option.isSome_iff_ne_none]

private theorem Condition.failure?_rule_eq_none_iff {holds : Bool} {err : Error} :
    (rule holds err).failure? lookup = none ↔ holds = true := by
  simp [failure?]

private theorem Assignable.failure?_conditions_iff {t : TypeId} {taking : String → List Condition} (a : Assignable) :
    (∀ k ∈ a.conditions t taking, k.failure? lookup = none) ↔
      (Sql.HasField lookup t a.field ∧
        ∀ field, a = .copy field → ∀ k ∈ taking field, k.failure? lookup = none) ∧
      ∀ d ∈ a.demands (.table ⟨t, none⟩), d.failure? lookup = none := by
  cases a with
  | assign field value =>
    simp only [conditions, List.forall_mem_cons, Condition.failure?_field_eq_none_iff, List.forall_mem_map]
    simp [Assignable.field, demands, Condition.failure?]
  | copy field =>
    simp only [conditions, List.forall_mem_append, List.forall_mem_cons, Condition.failure?_field_eq_none_iff]
    simp [Assignable.field, demands, and_comm]

private theorem Assignable.failure?_flatMap_iff {t : TypeId} {taking : String → List Condition}
    (assigns : List Assignable) :
    (∀ k ∈ assigns.flatMap (·.conditions t taking), k.failure? lookup = none) ↔
      (∀ a ∈ assigns, Sql.HasField lookup t a.field ∧
        ∀ field, a = .copy field → ∀ k ∈ taking field, k.failure? lookup = none) ∧
      ∀ d ∈ assigns.flatMap (·.demands (.table ⟨t, none⟩)), d.failure? lookup = none := by
  simp only [List.forall_mem_flatMap, failure?_conditions_iff]
  exact forall₂_and

private theorem OnConflict.failure?_conditions_iff {d : Dialect} (hd : d ∈ Dialect.given) {t : TypeId}
    (oc : OnConflict) :
    (∀ k ∈ oc.conditions d.name t, k.failure? lookup = none) ↔
      oc.Taken d (Sql.HasField lookup t) ∧
        ∀ k ∈ oc.assigns.flatMap (·.demands (.table ⟨t, none⟩)), k.failure? lookup = none := by
  have hassigns : (∀ k ∈ oc.assigns.flatMap (·.conditions t fun _ => []), k.failure? lookup = none) ↔
      (∀ a ∈ oc.assigns, Sql.HasField lookup t a.field) ∧
        ∀ k ∈ oc.assigns.flatMap (·.demands (.table ⟨t, none⟩)), k.failure? lookup = none := by
    rw [Assignable.failure?_flatMap_iff]
    simp only [List.not_mem_nil, false_implies, implies_true, and_true]
  rcases Dialect.eq_of_given hd with rfl | rfl | rfl
  · constructor
    · intro h
      cases h _ List.mem_cons_self
    · rintro ⟨htaken, -⟩
      exact absurd rfl htaken.dialect
  · rw [conditions, if_pos rfl, List.forall_mem_cons, Condition.failure?_rule_eq_none_iff, hassigns]
    constructor
    · rintro ⟨hsome, hfields, hdemands⟩
      have hne : oc.assigns ≠ [] := by simpa using hsome
      exact ⟨⟨Dialect.ne_of_name (by decide), fun _ => hne,
        fun h => absurd h (Dialect.ne_of_name (by decide)), hfields⟩, hdemands⟩
    · rintro ⟨htaken, hdemands⟩
      exact ⟨by simpa using htaken.mysql rfl, htaken.assigned, hdemands⟩
  · rw [conditions, if_neg (by decide), if_pos rfl, List.forall_mem_cons,
      Condition.failure?_rule_eq_none_iff, List.forall_mem_append, hassigns, List.forall_mem_map]
    simp only [Condition.failure?_field_eq_none_iff]
    have hempty : (!oc.targets.isEmpty || oc.assigns.isEmpty) = true ↔ oc.targets ≠ [] ∨ oc.assigns = [] := by
      simp
    rw [hempty]
    constructor
    · rintro ⟨hrule, htargets, hfields, hdemands⟩
      refine ⟨⟨Dialect.ne_of_name (by decide), fun h => absurd h (Dialect.ne_of_name (by decide)),
        fun _ => ?_, hfields⟩, hdemands⟩
      by_cases hnone : oc.targets = []
      · exact .inr ⟨hnone, hrule.resolve_left (not_not_intro hnone)⟩
      · exact .inl ⟨hnone, htargets⟩
    · rintro ⟨htaken, hdemands⟩
      rcases htaken.postgres rfl with ⟨hsome, htargets⟩ | ⟨hnone, hassign⟩
      · exact ⟨.inl hsome, htargets, htaken.assigned, hdemands⟩
      · refine ⟨.inr hassign, ?_, htaken.assigned, hdemands⟩
        rw [hnone]
        rintro - ⟨⟩

end

namespace Compiler

variable {c : Compiler} {cmd : Command}

/-- Well-formed commands meet their demands and obey their rules. -/
theorem wellFormed_iff :
    c.WellFormed cmd ↔ (∀ d ∈ cmd.demands, d.failure? c.lookup = none) ∧ c.Obeys cmd := by
  constructor
  · intro h
    refine ⟨fun d hd => ?_, h.rules⟩
    cases d with
    | model t => exact Demand.failure?_model_eq_none_iff.mpr (h.models _ hd)
    | column field source => exact Demand.failure?_column_eq_none_iff.mpr ⟨h.models _ hd, h.columns _ _ hd⟩
    | groups q => exact Demand.failure?_groups_eq_none_iff.mpr (h.groups q hd)
  · rintro ⟨hdemands, hrules⟩
    refine ⟨fun d hd => ?_, fun field source hd => ?_, fun q hd => ?_, hrules⟩
    · have hmet := hdemands d hd
      cases d with
      | model t => exact Demand.failure?_model_eq_none_iff.mp hmet
      | column field source => exact (Demand.failure?_column_eq_none_iff.mp hmet).1
      | groups q => exact nofun
    · exact (Demand.failure?_column_eq_none_iff.mp (hdemands _ hd)).2
    · exact Demand.failure?_groups_eq_none_iff.mp (hdemands _ hd)

private theorem failure?_upsert_iff {i : Insertion} (hd : i.onConflict.isSome → c.dialect ∈ Dialect.given) :
    (∀ k ∈ i.onConflict.toList.flatMap (·.conditions c.dialect.name i.entity), k.failure? c.lookup = none) ↔
      (∀ oc ∈ i.onConflict, oc.Taken c.dialect (Sql.HasField c.lookup i.entity)) ∧
        ∀ d ∈ i.onConflict.toList.flatMap fun oc => oc.assigns.flatMap (·.demands (.table ⟨i.entity, none⟩)),
          d.failure? c.lookup = none := by
  cases hoc : i.onConflict with
  | none => exact ⟨fun _ => ⟨nofun, nofun⟩, fun _ => nofun⟩
  | some oc =>
    have hgiven : c.dialect ∈ Dialect.given := hd (hoc ▸ rfl)
    simp only [Option.toList_some, List.flatMap_cons, List.flatMap_nil, List.append_nil, Option.mem_some_iff,
      forall_eq']
    exact oc.failure?_conditions_iff hgiven

/-- The conditions of a command are met if its demands are and its rules hold. -/
theorem failure?_conditions_iff (hd : cmd.onConflict?.isSome → c.dialect ∈ Dialect.given) :
    (∀ k ∈ cmd.conditions c.dialect.name, k.failure? c.lookup = none) ↔
      (∀ d ∈ cmd.demands, d.failure? c.lookup = none) ∧ c.Obeys cmd := by
  cases cmd with
  | select s =>
    rw [Command.conditions, List.forall_mem_cons, Condition.failure?_rule_eq_none_iff, List.forall_mem_map,
      Option.isNone_iff_eq_none]
    exact and_comm
  | insert i =>
    have hrows : (!i.rows.isEmpty) = true ↔ i.rows ≠ [] := by simp
    rw [Command.conditions, List.forall_mem_cons, List.forall_mem_cons, List.forall_mem_append,
      List.forall_mem_map, Condition.failure?_rule_eq_none_iff, hrows, failure?_upsert_iff hd]
    simp only [Condition.failure?_field_eq_none_iff]
    rw [Command.demands, List.forall_mem_cons, Obeys]
    constructor
    · rintro ⟨hsome, hmodel, hfields, htaken, hdemands⟩
      exact ⟨⟨hmodel, hdemands⟩, hsome, hfields, htaken⟩
    · rintro ⟨⟨hmodel, hdemands⟩, hsome, hfields, htaken⟩
      exact ⟨hsome, hmodel, hfields, htaken, hdemands⟩
  | update u =>
    have hassigns : (!u.assigns.isEmpty) = true ↔ u.assigns ≠ [] := by simp
    rw [Command.conditions, List.forall_mem_cons, List.forall_mem_cons, List.forall_mem_append,
      List.forall_mem_map, Condition.failure?_rule_eq_none_iff, hassigns, Assignable.failure?_flatMap_iff]
    simp only [Updating.taking, List.forall_mem_singleton, Condition.failure?_rule_eq_none_iff, Option.isSome_iff_exists]
    rw [Command.demands, List.forall_mem_cons, List.forall_mem_append, Obeys]
    constructor
    · rintro ⟨hsome, hmodel, ⟨hfields, hvalues⟩, hconditions⟩
      exact ⟨⟨hmodel, hvalues, hconditions⟩, hsome, hfields⟩
    · rintro ⟨⟨hmodel, hvalues, hconditions⟩, hsome, hfields⟩
      exact ⟨hsome, hmodel, ⟨hfields, hvalues⟩, hconditions⟩
  | delete d =>
    rw [Command.conditions, List.forall_mem_cons, List.forall_mem_map, Command.demands, List.forall_mem_cons]
    exact (and_iff_left trivial).symm
  | raw r => exact ⟨fun _ => ⟨nofun, trivial⟩, fun _ => nofun⟩

private theorem wellFormed_iff_findSome? (hd : cmd.onConflict?.isSome → c.dialect ∈ Dialect.given) :
    c.WellFormed cmd ↔ (cmd.conditions c.dialect.name).findSome? (Condition.failure? c.lookup) = none := by
  rw [wellFormed_iff, ← failure?_conditions_iff hd, List.findSome?_eq_none_iff]

end Compiler

section

variable {lookup : TypeId → Except Error Model}

private theorem Condition.asked_demands (ds : List Demand) :
    (ds.map demand).flatMap (asked lookup) = ds.flatMap (Demand.asked lookup) := by
  rw [List.flatMap_map]
  rfl

private theorem Condition.asked_fields (t : TypeId) (names : List String) :
    (names.map (field t)).flatMap (asked lookup) = [] := by
  rw [List.flatMap_map]
  exact List.flatMap_eq_nil_iff.mpr fun _ _ => rfl

private theorem Assignable.asked_conditions {t : TypeId} {taking : String → List Condition}
    (ht : ∀ field, (taking field).flatMap (Condition.asked lookup) = []) (assigns : List Assignable) :
    (assigns.flatMap (·.conditions t taking)).flatMap (Condition.asked lookup) =
      (assigns.flatMap (·.demands (.table ⟨t, none⟩))).flatMap (Demand.asked lookup) := by
  rw [List.flatMap_assoc, List.flatMap_assoc]
  congr 1
  funext a
  cases a with
  | assign field value => exact Condition.asked_demands _
  | copy field =>
    rw [conditions, List.flatMap_append, ht]
    rfl

private theorem OnConflict.asked_conditions {d : Dialect} (hd : d ∈ Dialect.given) {t : TypeId}
    {oc : OnConflict} {has : String → Prop} (htaken : oc.Taken d has) :
    (oc.conditions d.name t).flatMap (Condition.asked lookup) =
      (oc.assigns.flatMap (·.demands (.table ⟨t, none⟩))).flatMap (Demand.asked lookup) := by
  have hassigns : (oc.assigns.flatMap (·.conditions t fun _ => [])).flatMap (Condition.asked lookup) =
      (oc.assigns.flatMap (·.demands (.table ⟨t, none⟩))).flatMap (Demand.asked lookup) :=
    Assignable.asked_conditions (fun _ => rfl) oc.assigns
  rcases Dialect.eq_of_given hd with rfl | rfl | rfl
  · exact absurd rfl htaken.dialect
  · rw [conditions, if_pos rfl, List.flatMap_cons]
    exact hassigns
  · rw [conditions, if_neg (by decide), if_pos rfl, List.flatMap_cons, List.flatMap_append,
      Condition.asked_fields]
    exact hassigns

end

namespace Compiler

variable {c : Compiler} {cmd : Command}

private theorem asked_conditions (hd : cmd.onConflict?.isSome → c.dialect ∈ Dialect.given) (h : c.Obeys cmd) :
    (cmd.conditions c.dialect.name).flatMap (Condition.asked c.lookup) =
      cmd.demands.flatMap (Demand.asked c.lookup) := by
  cases cmd with
  | select s => exact Condition.asked_demands s.query.demands
  | insert i =>
    obtain ⟨entity, rows, names, onConflict⟩ := i
    obtain ⟨-, -, htaken⟩ := h
    have hupsert : (onConflict.toList.flatMap (·.conditions c.dialect.name entity)).flatMap
          (Condition.asked c.lookup) =
        (onConflict.toList.flatMap fun oc => oc.assigns.flatMap (·.demands (.table ⟨entity, none⟩))).flatMap
          (Demand.asked c.lookup) := by
      cases onConflict with
      | none => rfl
      | some oc => simpa using OnConflict.asked_conditions (hd rfl) (htaken oc rfl)
    simp only [Command.conditions, Command.demands, List.flatMap_cons, List.flatMap_append,
      Condition.asked_fields, hupsert]
    rfl
  | update u =>
    have htaking (field : String) : (u.taking field).flatMap (Condition.asked c.lookup) = [] := rfl
    simp only [Command.conditions, Command.demands, List.flatMap_cons, List.flatMap_append,
      Condition.asked_demands, Assignable.asked_conditions htaking]
    rfl
  | delete d =>
    simp only [Command.conditions, Command.demands, List.flatMap_cons, Condition.asked_demands]
    rfl
  | raw r => rfl

variable {r : Registry} {schema : Schema}

/-- A command over entities of its table, whose metadata comes from their declaration, is built just if
it is well-formed. Then it has asked for the models that its demands ask for, and for no other. A command
that is not built fails for the first of its conditions that it does not meet. -/
theorem build_ok_iff_wellFormed (hl : c.lookup = r.view schema) (cmd : Command)
    (hd : cmd.onConflict?.isSome → c.dialect ∈ Dialect.given)
    (hr : r.ReachableBy fun s => ∀ e ∈ cmd.entities, s.Derives e) (hs : ∀ e ∈ cmd.entities, schema.Derives e)
    (he : ∀ e ∈ cmd.entities, e.Derived ∧ cmd.entity? = some e.type) :
    ((∃ st, c.build cmd = .ok st) ↔ c.WellFormed cmd) ∧
    (c.WellFormed cmd → (c.emit cmd).consulted = cmd.demands.flatMap (Demand.asked c.lookup)) ∧
    ∀ err, c.build cmd = .error err ↔
      (cmd.conditions c.dialect.name).findSome? (Condition.failure? c.lookup) = some err := by
  have hfaithful : Sql.Faithful c.lookup := hl ▸ r.faithful_view schema
  have hread : ∀ e ∈ cmd.entities, ∀ t ∈ cmd.entity?, ∀ m, c.lookup t = .ok m → ∀ f ∈ m.fields,
      ∃ v, c.access.read m e f.name = .ok v := by
    intro e hmem t ht m hm f hf
    obtain ⟨hderived, htype⟩ := he e hmem
    cases htype.symm.trans ht
    rw [hl] at hm
    exact ⟨_, Registry.read_of_derives (fun hs => hs e hmem) hr hs hderived hm c.access hf⟩
  have hchecks := checks_emit hfaithful cmd hd hread
  have houtcome := hchecks.outcome.trans (Emission.outcome_forM Condition.outcome_check _)
  have herror (err : Error) : c.build cmd = .error err ↔
      (cmd.conditions c.dialect.name).findSome? (Condition.failure? c.lookup) = some err := by
    rw [build_eq_error_iff, houtcome, ending_eq_error_iff]
  have hwell := wellFormed_iff_findSome? hd
  refine ⟨?_, fun h => ?_, herror⟩
  · rw [hwell, ← Option.not_isSome_iff_eq_none, Option.isSome_iff_exists]
    simp only [← herror]
    cases c.build cmd <;> simp
  · have hok : (forM (cmd.conditions c.dialect.name) (Condition.check c.lookup)).outcome = .ok () := by
      rw [← hchecks.outcome, houtcome, hwell.mp h]
      rfl
    rw [hchecks.consulted, Emission.consulted_forM (fun _ h => Condition.consulted_check h) hok]
    exact asked_conditions hd h.rules

/-- An upsert of a note that takes a mark from a query for another, and the same with a target that is no
field of notes and after that a mark that no note has. -/
theorem build_ok_iff_wellFormed_note :
    let info : StructInfo :=
      ⟨"Note", .named "Note", 32, none, [⟨"Id", none, 0, 8, ⟨.integer .i64⟩⟩, ⟨"Mark", none, 8, 24, ⟨.text⟩⟩]⟩
    let schema : Schema := fun name => if name = "Note" then .struct info else .other
    let e : Entity := ⟨.named "Note", 32, [.blank "Id" true 0 8 (.integer .i64), .blank "Mark" true 8 24 .text]⟩
    let c : Compiler := ⟨.postgres, .byName, Registry.empty.view schema⟩
    let mark (field : String) : Expr := .subquery (((Selection.all (.named "Note")).select
      [.column ⟨none, field, none⟩]).limit (.zero .u64)).asSubQuery
    let upsert (target field : String) : Command :=
      .insert ⟨.named "Note", [e], [], some ⟨[target], [.copy "Id", .assign "Mark" (mark field)]⟩⟩
    c.WellFormed (upsert "Id" "Mark") ∧
      (c.emit (upsert "Id" "Mark")).consulted = [.named "Note", .named "Note", .named "Note"] ∧
      c.build (upsert "Author" "Author") = .error (.invalidField "Author") ∧
      ¬c.WellFormed (upsert "Id" "Author") := by
  intro info schema e c mark upsert
  have hl : c.lookup = Registry.empty.view schema := rfl
  have hgiven : c.dialect ∈ Dialect.given := by simp [c, Dialect.given]
  have hderives : schema.Derives e := ⟨Schema.upholds_single "Note" ⟨rfl, rfl⟩, info, rfl⟩
  have hderived : e.Derived := ⟨by decide, by decide, by decide⟩
  have hall (target field : String) :=
    build_ok_iff_wellFormed hl (upsert target field) (fun _ => hgiven) .empty
      (fun e he => List.mem_singleton.mp he ▸ hderives)
      (fun e he => List.mem_singleton.mp he ▸ ⟨hderived, rfl⟩)
  have hwell : c.WellFormed (upsert "Id" "Mark") := (hall "Id" "Mark").1.mp ⟨_, rfl⟩
  refine ⟨hwell, ?_, ?_, fun h => ?_⟩
  · rw [(hall "Id" "Mark").2.1 hwell]
    decide +kernel
  · refine ((hall "Author" "Author").2.2 _).mpr ?_
    decide +kernel
  · obtain ⟨st, hst⟩ := (hall "Id" "Author").1.mpr h
    cases hst

end Compiler

end EntitySql
