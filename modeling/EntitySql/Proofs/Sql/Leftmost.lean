import EntitySql.Proofs.Sql.Frame
import EntitySql.Proofs.Sql.WellFormed

namespace EntitySql

open Resolution

/-- A table or a subquery, as the side of a join. -/
inductive Leaf where
  | table (t : Table)
  | subquery (s : SubQuery)

def TableRef.leaves : TableRef → List Leaf
  | .table t => [.table t]
  | .join _ left right _ => left.leaves ++ right.leaves
  | .subquery s => [.subquery s]
termination_by structural x => x

namespace Leaf

def source : Leaf → TableRef
  | table t => .table t
  | subquery s => .subquery s

def aliasName : Leaf → Option String
  | table t => t.aliasName
  | subquery s => s.aliasName

variable (lookup : TypeId → Except Error Model) (field : String)

/-- What a leaf answers for a field: the column that its model has for it, or the one that its select list
exposes, with its alias as the qualifier. -/
def answer : Leaf → Except Error Resolved
  | table t => do
    let m ← lookup t.entity
    let f ← m.requireField field
    pure (t.aliasName, f.column)
  | subquery s => do
    let column ← (exposed lookup field s.query).outcome
    pure (s.aliasName, column)

def asked : Leaf → List TypeId
  | table t => [t.entity]
  | subquery s => (exposed lookup field s.query).consulted

/-- Whether a leaf decides: any answer does but that the field is unknown. -/
def decides (leaf : Leaf) : Bool :=
  match leaf.answer lookup field with
  | .error (.invalidField _) => false
  | _ => true

def askFirst : List Leaf → Emission Resolved
  | [] => .fail (.invalidField field)
  | leaf :: rest => (resolve lookup field leaf.source).orElseField fun _ => askFirst rest

end Leaf

namespace Emission

variable {α β : Type}

variable {e : Emission α} {field : String}

private theorem outcome_bind (e : Emission α) (f : α → Emission β) :
    (e >>= f).outcome = e.outcome >>= fun a => (f a).outcome := by
  rw [bind_def]
  cases he : e.outcome with
  | error err => rw [andThen_error he]; rfl
  | ok a => rw [andThen_ok he]; rfl

private theorem orElseField_of_unknown (h : e.outcome = .error (.invalidField field)) (f : Unit → Emission α) :
    e.orElseField f = ⟨e.pieces ++ (f ()).pieces, e.consulted ++ (f ()).consulted, (f ()).outcome⟩ := by
  simp only [orElseField, h]

private theorem orElseField_of_decided (h : ∀ field, e.outcome ≠ .error (.invalidField field)) (f : Unit → Emission α) :
    e.orElseField f = e := by
  unfold orElseField
  split
  · rename_i field hfield
    exact absurd hfield (h field)
  · rfl

private theorem orElseField_assoc (e : Emission α) (f g : Unit → Emission α) :
    (e.orElseField f).orElseField g = e.orElseField fun _ => (f ()).orElseField g := by
  -- A second attempt is made where the first met an unknown field, a third where both did.
  by_cases he : ∃ field, e.outcome = .error (.invalidField field)
  · obtain ⟨field, he⟩ := he
    let both : Emission α := ⟨e.pieces ++ (f ()).pieces, e.consulted ++ (f ()).consulted, (f ()).outcome⟩
    have hboth : e.orElseField f = both := orElseField_of_unknown he f
    rw [hboth, orElseField_of_unknown he]
    by_cases hf : ∃ field, (f ()).outcome = .error (.invalidField field)
    · obtain ⟨field', hf⟩ := hf
      rw [orElseField_of_unknown hf, orElseField_of_unknown (e := both) hf]
      simp [both]
    · have hd := not_exists.mp hf
      rw [orElseField_of_decided hd, orElseField_of_decided (e := both) hd]
  · rw [orElseField_of_decided (not_exists.mp he), orElseField_of_decided (not_exists.mp he),
      orElseField_of_decided (not_exists.mp he)]

/-- A second attempt that can do no more than say that the field is unknown. -/
theorem orElseField_fail (h : ∀ field', e.outcome = .error (.invalidField field') → field' = field) :
    (e.orElseField fun _ => fail (.invalidField field)) = e := by
  by_cases he : ∃ field', e.outcome = .error (.invalidField field')
  · obtain ⟨field', he⟩ := he
    obtain rfl := h field' he
    rw [orElseField_of_unknown he]
    obtain ⟨pieces, consulted, outcome⟩ := e
    simp only [fail, List.append_nil, ← he]
  · exact orElseField_of_decided (not_exists.mp he) _

/-- A walk that asks for every model that it depends on. -/
def Forthright (walk : (TypeId → Except Error Model) → Emission α) : Prop :=
  ∀ lookup lookup', (∀ t ∈ (walk lookup).consulted, lookup' t = lookup t) → walk lookup' = walk lookup

namespace Forthright

private theorem const (e : Emission α) : Forthright fun _ => e := fun _ _ _ => rfl

theorem model (t : TypeId) : Forthright fun lookup => Emission.model lookup t := fun lookup lookup' h => by
  have ht : lookup' t = lookup t := h t (List.mem_singleton_self t)
  simp only [Emission.model, ht]

private theorem bind {walk : (TypeId → Except Error Model) → Emission α}
    {next : α → (TypeId → Except Error Model) → Emission β} (hw : Forthright walk)
    (hn : ∀ a, Forthright (next a)) : Forthright fun lookup => walk lookup >>= fun a => next a lookup := by
  intro lookup lookup' h
  dsimp only at h ⊢
  cases ho : (walk lookup).outcome with
  | error err =>
    rw [bind_def, andThen_error ho] at h
    rw [hw lookup lookup' h, bind_def, bind_def, andThen_error ho, andThen_error ho]
  | ok a =>
    rw [bind_def, andThen_ok ho] at h
    have hfirst := hw lookup lookup' fun t ht => h t (List.mem_append_left _ ht)
    have hsecond := hn a lookup lookup' fun t ht => h t (List.mem_append_right _ ht)
    rw [hfirst, bind_def, bind_def, andThen_ok ho, andThen_ok ho, hsecond]

private theorem map {walk : (TypeId → Except Error Model) → Emission α} (g : α → β) (hw : Forthright walk) :
    Forthright fun lookup => g <$> walk lookup := by
  simp only [map_eq_pure_bind]
  exact hw.bind fun a => const _

private theorem orElseField {walk other : (TypeId → Except Error Model) → Emission α} (hw : Forthright walk)
    (ho : Forthright other) : Forthright fun lookup => (walk lookup).orElseField fun _ => other lookup := by
  intro lookup lookup' h
  dsimp only at h ⊢
  by_cases hu : ∃ field, (walk lookup).outcome = .error (.invalidField field)
  · obtain ⟨field, hu⟩ := hu
    rw [orElseField_of_unknown hu] at h
    have hfirst := hw lookup lookup' fun t ht => h t (List.mem_append_left _ ht)
    have hsecond := ho lookup lookup' fun t ht => h t (List.mem_append_right _ ht)
    rw [hfirst, hsecond]
  · have hd := not_exists.mp hu
    rw [orElseField_of_decided hd] at h
    rw [hw lookup lookup' h, orElseField_of_decided hd, orElseField_of_decided hd]

end Forthright

end Emission

namespace Sql

open Emission (Forthright)

variable {lookup : TypeId → Except Error Model}

mutual

private theorem forthright_resolve (field : String) :
    ∀ source, Forthright fun lookup => resolve lookup field source
  | .table t => (Forthright.model t.entity).bind fun _ => .const _
  | .join _ left right _ => (forthright_resolve field left).orElseField (forthright_resolve field right)
  | .subquery ⟨query, _⟩ => (forthright_exposed field query).bind fun _ => .const _
termination_by structural x => x

theorem forthright_exposed (field : String) :
    ∀ query, Forthright fun lookup => exposed lookup field query
  | ⟨source, columns, _, _, _, _, _, _, _⟩ => by
    have hsource := (forthright_resolve field source).map (·.2)
    simp only [exposed]
    split
    · exact hsource
    split
    · exact .const _
    · exact forthright_exposedItem field hsource columns
termination_by structural x => x

theorem forthright_exposedItem (field : String)
    {inSource : (TypeId → Except Error Model) → Emission String} (hsource : Forthright inSource) :
    ∀ columns, Forthright fun lookup => exposedItem lookup field (fun _ => inSource lookup) columns
  | [] => .const _
  | .column ⟨none, f, none⟩ :: rest => by
    simp only [exposedItem]
    split
    · exact hsource
    · exact forthright_exposedItem field hsource rest
  | .column ⟨some source, f, none⟩ :: rest => by
    simp only [exposedItem]
    split
    · exact (forthright_resolve field source).map _
    · exact forthright_exposedItem field hsource rest
  | .column ⟨none, _, some _⟩ :: rest => forthright_exposedItem field hsource rest
  | .column ⟨some _, _, some _⟩ :: rest => forthright_exposedItem field hsource rest
  | .aggregate _ :: rest => forthright_exposedItem field hsource rest
  | .raw _ :: rest => forthright_exposedItem field hsource rest
  | .subquery _ :: rest => forthright_exposedItem field hsource rest
termination_by structural x => x

end

/-- A search fails because nobody knows the field, or for a model that it asked for. -/
theorem error_of_search {field : String} {err : Error} : ∀ {cs : List Candidate},
    (Candidate.search lookup field cs).outcome = .error err →
      err = .invalidField field ∨ ∃ t ∈ (Candidate.search lookup field cs).consulted, lookup t = .error err
  | [], h => by
    cases h
    exact .inl rfl
  | .given :: rest, h => by cases h
  | .table t :: rest, h => by
    cases hm : lookup t with
    | error modelError =>
      rw [search_error hm] at h ⊢
      cases h
      exact .inr ⟨t, List.mem_singleton_self t, hm⟩
    | ok m =>
      by_cases hf : (m.field? field).isSome = true
      · rw [search_known hm hf] at h
        cases h
      · rw [search_unknown hm hf] at h ⊢
        refine (error_of_search h).imp_right ?_
        rintro ⟨u, hu, hlookup⟩
        exact ⟨u, List.mem_cons_of_mem t hu, hlookup⟩

private theorem error_of_resolve (hl : Faithful lookup) {field : String} {source : TableRef} {err : Error}
    (h : (resolve lookup field source).outcome = .error err) :
    err = .invalidField field ∨ ∃ t ∈ (resolve lookup field source).consulted, lookup t = .error err := by
  have hsilent := silent_resolve hl field source
  have houtcome : (resolve lookup field source).silent.outcome = .error err := by
    simp only [Emission.silent, h, Except.map]
  have hconsulted : (resolve lookup field source).consulted = (resolve lookup field source).silent.consulted := rfl
  rw [hconsulted, hsilent]
  rw [hsilent] at houtcome
  exact error_of_search houtcome

end Sql

namespace Leaf

open Sql

variable {lookup : TypeId → Except Error Model} {field : String}

theorem answer_eq (leaf : Leaf) : leaf.answer lookup field = (resolve lookup field leaf.source).outcome := by
  cases leaf with
  | table t =>
    simp only [source, resolve, inTable, Emission.outcome_bind]
    rfl
  | subquery s =>
    obtain ⟨query, aliasName⟩ := s
    simp only [source, resolve, Emission.outcome_bind]
    rfl

private theorem asked_eq (leaf : Leaf) : leaf.asked lookup field = (resolve lookup field leaf.source).consulted := by
  cases leaf with
  | table t =>
    simp only [asked, source, resolve, inTable, Emission.bind_def, Emission.andThen, Emission.model]
    cases lookup t.entity with
    | error err => rfl
    | ok m =>
      simp only [Emission.ofExcept]
      cases m.requireField field <;> simp [pure]
  | subquery s =>
    obtain ⟨query, aliasName⟩ := s
    simp only [asked, source, resolve, Emission.bind_def, Emission.andThen]
    cases (exposed lookup field query).outcome <;> simp [pure]

private theorem resolve_source (leaf : Leaf) :
    resolve lookup field leaf.source = ⟨[], leaf.asked lookup field, leaf.answer lookup field⟩ := by
  have hpieces : (resolve lookup field leaf.source).pieces = [] := (quiet_resolve field leaf.source).pieces
  rw [answer_eq, asked_eq, ← hpieces]

private theorem decides_eq_false_iff (leaf : Leaf) :
    leaf.decides lookup field = false ↔ ∃ field', leaf.answer lookup field = .error (.invalidField field') := by
  unfold decides
  split
  · rename_i field' h
    simp [h]
  · rename_i h
    simpa using h

private theorem askFirst_append (xs ys : List Leaf) :
    askFirst lookup field (xs ++ ys) = (askFirst lookup field xs).orElseField fun _ => askFirst lookup field ys := by
  induction xs with
  | nil => rfl
  | cons leaf rest ih => rw [List.cons_append, askFirst, askFirst, ih, Emission.orElseField_assoc]

/-- The answer of the deciding leaf is the answer, and what stands behind that leaf is not asked. -/
theorem askFirst_of_decides {leaf : Leaf} (hleaf : leaf.decides lookup field = true) (after : List Leaf) :
    ∀ {before : List Leaf}, (∀ l ∈ before, l.decides lookup field = false) →
      askFirst lookup field (before ++ leaf :: after) =
        ⟨[], (before ++ [leaf]).flatMap (·.asked lookup field), leaf.answer lookup field⟩
  | [], _ => by
    have hdecided : ∀ field', (resolve lookup field leaf.source).outcome ≠ .error (.invalidField field') := by
      intro field' h
      have hfalse := (decides_eq_false_iff leaf).mpr ⟨field', (answer_eq leaf).trans h⟩
      rw [hleaf] at hfalse
      cases hfalse
    rw [List.nil_append, askFirst, Emission.orElseField_of_decided hdecided, resolve_source]
    simp
  | first :: before, h => by
    obtain ⟨field', hfirst⟩ := (decides_eq_false_iff first).mp (h first List.mem_cons_self)
    have ih := askFirst_of_decides hleaf after fun l hl => h l (List.mem_cons_of_mem first hl)
    rw [List.cons_append, askFirst, Emission.orElseField_of_unknown ((answer_eq first).symm.trans hfirst), ih,
      resolve_source]
    simp

private theorem askFirst_of_unknown : ∀ {leaves : List Leaf}, (∀ l ∈ leaves, l.decides lookup field = false) →
    (askFirst lookup field leaves).outcome = .error (.invalidField field)
  | [], _ => rfl
  | first :: rest, h => by
    obtain ⟨field', hfirst⟩ := (decides_eq_false_iff first).mp (h first List.mem_cons_self)
    rw [askFirst, Emission.orElseField_of_unknown ((answer_eq first).symm.trans hfirst)]
    exact askFirst_of_unknown fun l hl => h l (List.mem_cons_of_mem first hl)

private theorem askFirst_singleton (hl : Faithful lookup) (leaf : Leaf) :
    askFirst lookup field [leaf] = resolve lookup field leaf.source := by
  -- The field that a leaf does not know is the one it was asked for, also deep inside of a subquery.
  refine Emission.orElseField_fail fun field' h => ?_
  rcases error_of_resolve hl h with hfield | ⟨t, -, ht⟩
  · cases hfield
    rfl
  · exact absurd ht (hl t field')

/-- Resolution asks the leaves one after another, however the joins are nested. -/
theorem resolve_eq_askFirst (hl : Faithful lookup) : ∀ source : TableRef,
    resolve lookup field source = askFirst lookup field source.leaves
  | .table t => (askFirst_singleton hl (.table t)).symm
  | .join _ left right _ => by
    rw [resolve, TableRef.leaves, askFirst_append, resolve_eq_askFirst hl left, resolve_eq_askFirst hl right]
  | .subquery s => (askFirst_singleton hl (.subquery s)).symm
termination_by structural x => x

theorem outcome_resolve (hl : Faithful lookup) (source : TableRef) :
    (resolve lookup field source).outcome =
      match source.leaves.find? (·.decides lookup field) with
      | some leaf => leaf.answer lookup field
      | none => .error (.invalidField field) := by
  rw [resolve_eq_askFirst hl]
  cases hfind : source.leaves.find? (·.decides lookup field) with
  | none =>
    refine askFirst_of_unknown fun l hl => ?_
    simpa using List.find?_eq_none.mp hfind l hl
  | some leaf =>
    obtain ⟨hleaf, before, after, hleaves, hbefore⟩ := List.find?_eq_some_iff_append.mp hfind
    rw [hleaves, askFirst_of_decides hleaf after fun l hl => by simpa using hbefore l hl]

theorem answer_table {t : Table} {resolved : Resolved} (h : (table t).answer lookup field = .ok resolved) :
    ∃ m f, lookup t.entity = .ok m ∧ m.field? field = some f ∧ resolved = (t.aliasName, f.column) := by
  simp only [answer, bind, Except.bind] at h
  split at h
  · cases h
  rename_i m hm
  rw [Model.requireField] at h
  cases hf : m.field? field with
  | none =>
    rw [hf] at h
    cases h
  | some f =>
    rw [hf] at h
    cases h
    exact ⟨m, f, hm, hf, rfl⟩

theorem answer_subquery {s : SubQuery} {resolved : Resolved} (h : (subquery s).answer lookup field = .ok resolved) :
    ∃ column, (exposed lookup field s.query).outcome = .ok column ∧ resolved = (s.aliasName, column) := by
  simp only [answer, bind, Except.bind] at h
  split at h
  · cases h
  rename_i column hcolumn
  cases h
  exact ⟨column, hcolumn, rfl⟩

private theorem qualifier_of_answer {leaf : Leaf} {resolved : Resolved} (h : leaf.answer lookup field = .ok resolved) :
    resolved.1 = leaf.aliasName := by
  cases leaf with
  | table t =>
    obtain ⟨m, f, -, -, rfl⟩ := answer_table h
    rfl
  | subquery s =>
    obtain ⟨column, -, rfl⟩ := answer_subquery h
    rfl

/-- A leaf that decides gives its alias as the qualifier, or fails for a model that it asked for. -/
theorem answer_of_decides (hl : Faithful lookup) {leaf : Leaf} (h : leaf.decides lookup field = true) :
    (∃ column, leaf.answer lookup field = .ok (leaf.aliasName, column)) ∨
      ∃ t ∈ leaf.asked lookup field, ∃ err, lookup t = .error err ∧ leaf.answer lookup field = .error err := by
  cases ho : leaf.answer lookup field with
  | ok resolved => exact .inl ⟨resolved.2, by rw [← qualifier_of_answer ho]⟩
  | error err =>
    right
    rw [asked_eq]
    rcases error_of_resolve hl ((answer_eq leaf).symm.trans ho) with rfl | ⟨t, ht, hlookup⟩
    · have hfalse := (decides_eq_false_iff leaf).mpr ⟨field, ho⟩
      rw [h] at hfalse
      cases hfalse
    · exact ⟨t, ht, err, hlookup, rfl⟩

section

variable {lookup' : TypeId → Except Error Model} {leaf : Leaf}
  (h : ∀ t ∈ leaf.asked lookup field, lookup' t = lookup t)

include h

private theorem resolve_source_congr : resolve lookup' field leaf.source = resolve lookup field leaf.source :=
  forthright_resolve field leaf.source lookup lookup' fun t ht => h t ((asked_eq leaf).symm ▸ ht)

private theorem answer_congr : leaf.answer lookup' field = leaf.answer lookup field := by
  rw [answer_eq, answer_eq, resolve_source_congr h]

private theorem asked_congr : leaf.asked lookup' field = leaf.asked lookup field := by
  rw [asked_eq, asked_eq, resolve_source_congr h]

private theorem decides_congr : leaf.decides lookup' field = leaf.decides lookup field := by
  rw [decides, decides, answer_congr h]

end

end Leaf

namespace Builder

open Leaf

def asking (b : Builder) (schema : Schema) (types : List TypeId) : Builder :=
  { b with registry := b.registry.consultAll schema types }

/-- Resolving a field in a builder: the builder asks the types of the resolution, and writes nothing. -/
theorem run_resolve (schema : Schema) (b : Builder) (field : String) (source : TableRef) :
    (resolve schema field source).run b =
      ((Resolution.resolve (b.registry.view schema) field source).outcome,
        b.asking schema (Resolution.resolve (b.registry.view schema) field source).consulted) := by
  have hpieces : (Resolution.resolve (b.registry.view schema) field source).pieces = [] :=
    (Sql.quiet_resolve field source).pieces
  rw [writes_resolve b.scope field source b rfl rfl, put, hpieces]
  simp [asking, Spelling.text, argsOf]

/-- A field of a source, whatever its joins, is that of the first leaf that does not answer that the field is
unknown. This leaf gives its alias and a column, or fails for a model that it needs; if there is none the field
is unknown. Behind that leaf nothing matters: any other source that has the same leaves up to there, over any
models that agree where these leaves ask, has the same answer and asks for the same types. -/
theorem resolve_leftmost (schema : Schema) (b : Builder) (field : String) (source : TableRef) :
    let lookup := b.registry.view schema
    ((resolve schema field source).run b).1 =
        (match source.leaves.find? (·.decides lookup field) with
        | some leaf => leaf.answer lookup field
        | none => .error (.invalidField field)) ∧
      ∀ before leaf after, source.leaves = before ++ leaf :: after →
        (∀ l ∈ before, l.decides lookup field = false) → leaf.decides lookup field = true →
        ((∃ column, leaf.answer lookup field = .ok (leaf.aliasName, column)) ∨
          ∃ t ∈ leaf.asked lookup field, ∃ err, lookup t = .error err ∧ leaf.answer lookup field = .error err) ∧
        ∀ (schema' : Schema) (b' : Builder) (source' : TableRef) (after' : List Leaf),
          source'.leaves = before ++ leaf :: after' →
          (∀ l ∈ before ++ [leaf], ∀ t ∈ l.asked lookup field, b'.registry.view schema' t = lookup t) →
          (resolve schema' field source').run b' =
            (leaf.answer lookup field, b'.asking schema' ((before ++ [leaf]).flatMap (·.asked lookup field))) := by
  intro lookup
  have hl : Sql.Faithful lookup := b.registry.faithful_view schema
  refine ⟨?_, fun before leaf after hleaves hbefore hleaf => ⟨answer_of_decides hl hleaf, ?_⟩⟩
  · rw [run_resolve]
    exact outcome_resolve hl source
  intro schema' b' source' after' hleaves' hagree
  -- The leaves up to the deciding one see what they saw before, so they answer and decide as before.
  let lookup' := b'.registry.view schema'
  have hbefore' : ∀ l ∈ before, l.decides lookup' field = false := fun l hmem => by
    rw [decides_congr (hagree l (List.mem_append_left _ hmem)), hbefore l hmem]
  have hlast := hagree leaf (List.mem_append_right _ (List.mem_singleton_self leaf))
  have hleaf' : leaf.decides lookup' field = true := by rw [decides_congr hlast, hleaf]
  have hasked : (before ++ [leaf]).flatMap (·.asked lookup' field) =
      (before ++ [leaf]).flatMap (·.asked lookup field) :=
    congrArg List.flatten (List.map_congr_left fun l hmem => asked_congr (hagree l hmem))
  have hresolve : Resolution.resolve lookup' field source' = askFirst lookup' field source'.leaves :=
    resolve_eq_askFirst (b'.registry.faithful_view schema') source'
  rw [hleaves', askFirst_of_decides hleaf' after' hbefore', hasked, answer_congr hlast] at hresolve
  rw [run_resolve, hresolve]

/-- A name that the left table does not have, the subquery beside it exposes, and the table on the right, which
has no model, is never asked for; and the same where the joins are nested the other way round. -/
theorem resolve_leftmost_nested :
    let note : Model := ⟨"notes", .named "Note", [⟨"score", "score", 0, 8, ⟨.integer .i64⟩, 0⟩]⟩
    let author : Model := ⟨"authors", .named "Author", [⟨"name", "full_name", 0, 24, ⟨.text⟩, 0⟩]⟩
    let schema : Schema := fun _ => .other
    let r : Registry := (Registry.empty.insert (.named "Note") note).insert (.named "Author") author
    let notes : TableRef := .table ⟨.named "Note", none⟩
    let authors : SubQuery := ⟨Query.all (.table ⟨.named "Author", some "x"⟩), some "a"⟩
    let ghosts : TableRef := .table ⟨.named "Ghost", none⟩
    let source : TableRef := .join .inner (.join .left notes (.subquery authors) (.on [])) ghosts (.on [])
    let other : TableRef := .join .right notes (.join .inner (.subquery authors) notes (.on [])) (.using ["name"])
    let b : Builder := ⟨.standard, r, "", [], none⟩
    ((resolve schema "name" ghosts).run b).1 = .error .invalidModelType ∧
      ((resolve schema "name" source).run b).1 = .ok (some "a", "full_name") ∧
      (resolve schema "name" other).run b = (.ok (some "a", "full_name"), b) := by
  intro note author schema r notes authors ghosts source other b
  let lookup := b.registry.view schema
  have hleaves : source.leaves = [.table ⟨.named "Note", none⟩] ++ .subquery authors :: [.table ⟨.named "Ghost", none⟩] :=
    rfl
  have hbefore : ∀ l ∈ [Leaf.table ⟨.named "Note", none⟩], l.decides lookup "name" = false := by
    intro l hmem
    rw [List.mem_singleton.mp hmem]
    rfl
  obtain ⟨hfirst, hall⟩ := resolve_leftmost schema b "name" source
  obtain ⟨-, hothers⟩ := hall _ (.subquery authors) _ hleaves hbefore rfl
  refine ⟨rfl, hfirst.trans rfl, ?_⟩
  exact hothers schema b other [.table ⟨.named "Note", none⟩] rfl fun _ _ _ _ => rfl

end Builder

end EntitySql
