import EntitySql.Sql.Resolution

namespace EntitySql

/-- A place where a field may be found. -/
inductive Candidate where
  | table (t : TypeId)
  /-- A select list gives the name to one of its items. -/
  | given

mutual

def TableRef.candidates (field : String) : TableRef → List Candidate
  | .table t => [.table t.entity]
  | .join _ left right _ => left.candidates field ++ right.candidates field
  | .subquery ⟨query, _⟩ => query.candidates field
termination_by structural x => x

def Query.candidates (field : String) : Query → List Candidate
  | ⟨source, columns, _, _, _, _, _, _, _⟩ =>
    if columns.isEmpty then source.candidates field
    else if columns.any (fun item => item.aliasName == some field) then [.given]
    else Selectable.candidates field (source.candidates field) columns
termination_by structural x => x

/-- The candidates that the first item for a field without an alias leads to. -/
def Selectable.candidates (field : String) (inSource : List Candidate) : List Selectable → List Candidate
  | [] => []
  | .column ⟨none, f, none⟩ :: rest => if f = field then inSource else Selectable.candidates field inSource rest
  | .column ⟨some source, f, none⟩ :: rest =>
    if f = field then source.candidates field else Selectable.candidates field inSource rest
  | .column ⟨_, _, some _⟩ :: rest => Selectable.candidates field inSource rest
  | .aggregate _ :: rest => Selectable.candidates field inSource rest
  | .raw _ :: rest => Selectable.candidates field inSource rest
  | .subquery _ :: rest => Selectable.candidates field inSource rest
termination_by structural x => x

end

namespace Candidate

def knows (lookup : TypeId → Except Error Model) (field : String) : Candidate → Bool
  | given => true
  | table t =>
    match lookup t with
    | .ok m => (m.field? field).isSome
    | .error _ => false

/-- The tables that are asked: all up to where the field is found. -/
def asked (lookup : TypeId → Except Error Model) (field : String) : List Candidate → List TypeId
  | [] => []
  | given :: _ => []
  | table t :: rest => t :: if (table t).knows lookup field then [] else asked lookup field rest

/-- Asking candidates in order until the field is found. -/
def search (lookup : TypeId → Except Error Model) (field : String) : List Candidate → Emission Unit
  | [] => .fail (.invalidField field)
  | given :: _ => pure ()
  | table t :: rest => do
    let m ← Emission.model lookup t
    if (m.field? field).isSome then pure () else search lookup field rest

end Candidate

namespace Emission

variable {α β : Type}

/-- A walk that writes nothing and gives nothing, but asks for the same types and fails alike. -/
def silent (e : Emission α) : Emission Unit := ⟨[], e.consulted, e.outcome.map fun _ => ()⟩

theorem silent_bind (e : Emission α) (f : α → Emission β) :
    (e >>= f).silent =
      match e.outcome with
      | .ok a => ⟨[], e.consulted ++ (f a).silent.consulted, (f a).silent.outcome⟩
      | .error err => ⟨[], e.consulted, .error err⟩ := by
  rw [bind_def]
  cases he : e.outcome with
  | error err => rw [andThen_error he]; rfl
  | ok a => rw [andThen_ok he]; rfl

/-- What gives a result and asks for nothing more. -/
theorem silent_map (e : Emission α) (g : α → β) : (g <$> e).silent = e.silent := by
  rw [map_eq_pure_bind, silent_bind]
  cases he : e.outcome <;> simp [silent, he, pure, Except.map]

private theorem silent_orElseField (e : Emission α) (f : Unit → Emission α) :
    (e.orElseField f).silent = e.silent.orElseField fun _ => (f ()).silent := by
  cases he : e.outcome with
  | ok a => simp [silent, orElseField, he, Except.map]
  | error err => cases err <;> simp [silent, orElseField, he, Except.map]

end Emission

namespace Sql

open Candidate Resolution

/-- A lookup that fails, if at all, for another reason than an unknown field. -/
def Faithful (lookup : TypeId → Except Error Model) : Prop :=
  ∀ t field, lookup t ≠ .error (.invalidField field)

variable {lookup : TypeId → Except Error Model}

theorem search_error {field : String} {t : TypeId} {err : Error} (hm : lookup t = .error err)
    (rest : List Candidate) : search lookup field (.table t :: rest) = ⟨[], [t], .error err⟩ := by
  rw [search, Emission.bind_def, Emission.andThen_error hm]
  rfl

theorem search_known {field : String} {t : TypeId} {m : Model} (hm : lookup t = .ok m)
    (hf : (m.field? field).isSome = true) (rest : List Candidate) :
    search lookup field (.table t :: rest) = ⟨[], [t], .ok ()⟩ := by
  rw [search, Emission.bind_def, Emission.andThen_ok hm, if_pos hf]
  rfl

theorem search_unknown {field : String} {t : TypeId} {m : Model} (hm : lookup t = .ok m)
    (hf : ¬(m.field? field).isSome = true) (rest : List Candidate) :
    search lookup field (.table t :: rest) =
      { search lookup field rest with consulted := t :: (search lookup field rest).consulted } := by
  rw [search, Emission.bind_def, Emission.andThen_ok hm, if_neg hf]
  rfl

private theorem search_append (hl : Faithful lookup) (field : String) (ys : List Candidate) : ∀ xs,
    search lookup field (xs ++ ys) = (search lookup field xs).orElseField fun _ => search lookup field ys
  | [] => rfl
  | .given :: rest => rfl
  | .table t :: rest => by
    have ih := search_append hl field ys rest
    cases hm : lookup t with
    | error err =>
      have hfield (f : String) : err ≠ .invalidField f := fun h => hl t f (hm.trans (congrArg _ h))
      rw [List.cons_append, search_error hm, search_error hm]
      cases err with
      | invalidField f => exact absurd rfl (hfield f)
      | _ => rfl
    | ok m =>
      by_cases hf : (m.field? field).isSome = true
      · rw [List.cons_append, search_known hm hf, search_known hm hf]
        rfl
      · rw [List.cons_append, search_unknown hm hf, search_unknown hm hf, ih]
        cases ho : (search lookup field rest).outcome with
        | ok u => simp [Emission.orElseField, ho]
        | error err => cases err <;> simp [Emission.orElseField, ho]

private theorem silent_inTable (t : Table) (field : String) :
    (inTable lookup t field).silent = search lookup field [.table t.entity] := by
  rw [inTable]
  cases hm : lookup t.entity with
  | error err =>
    rw [search_error hm, Emission.bind_def, Emission.andThen_error hm]
    rfl
  | ok m =>
    rw [Emission.bind_def, Emission.andThen_ok hm, Model.requireField]
    cases hf : m.field? field with
    | some f =>
      rw [search_known hm (by rw [hf]; rfl)]
      rfl
    | none =>
      rw [search_unknown hm (by rw [hf]; exact Bool.false_ne_true)]
      rfl

mutual

theorem silent_resolve (hl : Faithful lookup) (field : String) : ∀ source,
    (resolve lookup field source).silent = search lookup field (source.candidates field)
  | .table t => silent_inTable t field
  | .join _ left right _ => by
    rw [resolve, TableRef.candidates, search_append hl, Emission.silent_orElseField,
      silent_resolve hl field left, silent_resolve hl field right]
  | .subquery ⟨query, aliasName⟩ => by
    rw [resolve, TableRef.candidates, ← silent_exposed hl field query]
    exact Emission.silent_map (exposed lookup field query) fun column => (aliasName, column)
termination_by structural x => x

theorem silent_exposed (hl : Faithful lookup) (field : String) : ∀ query,
    (exposed lookup field query).silent = search lookup field (query.candidates field)
  | ⟨source, columns, _, _, _, _, _, _, _⟩ => by
    have hsource : ((·.2) <$> resolve lookup field source).silent =
        search lookup field (source.candidates field) := by
      rw [Emission.silent_map, silent_resolve hl field source]
    rw [exposed, Query.candidates]
    split
    · exact hsource
    split
    · rfl
    · exact silent_exposedItem hl field hsource columns
termination_by structural x => x

theorem silent_exposedItem (hl : Faithful lookup) (field : String) {inSource : Unit → Emission String}
    {candidates : List Candidate} (hsource : (inSource ()).silent = search lookup field candidates) :
    ∀ columns, (exposedItem lookup field inSource columns).silent =
      search lookup field (Selectable.candidates field candidates columns)
  | [] => rfl
  | .column ⟨none, f, none⟩ :: rest => by
    rw [exposedItem, Selectable.candidates]
    split
    · exact hsource
    · exact silent_exposedItem hl field hsource rest
  | .column ⟨some source, f, none⟩ :: rest => by
    rw [exposedItem, Selectable.candidates]
    split
    · rw [Emission.silent_map, silent_resolve hl field source]
    · exact silent_exposedItem hl field hsource rest
  | .column ⟨none, _, some _⟩ :: rest => silent_exposedItem hl field hsource rest
  | .column ⟨some _, _, some _⟩ :: rest => silent_exposedItem hl field hsource rest
  | .aggregate _ :: rest => silent_exposedItem hl field hsource rest
  | .raw _ :: rest => silent_exposedItem hl field hsource rest
  | .subquery _ :: rest => silent_exposedItem hl field hsource rest
termination_by structural x => x

end

def firstError (lookup : TypeId → Except Error Model) (ts : List TypeId) : Option Error :=
  ts.findSome? fun t =>
    match lookup t with
    | .ok _ => none
    | .error err => some err

/-- A search fails for a table that is asked and has no model, else if nobody knows the field. -/
theorem outcome_search (field : String) : ∀ cs : List Candidate,
    (search lookup field cs).outcome =
      match firstError lookup (asked lookup field cs) with
      | some err => .error err
      | none => if cs.any (·.knows lookup field) then .ok () else .error (.invalidField field)
  | [] => rfl
  | .given :: rest => rfl
  | .table t :: rest => by
    have ih := outcome_search field rest
    cases hm : lookup t with
    | error err =>
      have hknows : (table t).knows lookup field = false := by simp [knows, hm]
      simp [search_error hm, asked, hknows, firstError, hm]
    | ok m =>
      have hknows : (table t).knows lookup field = (m.field? field).isSome := by simp [knows, hm]
      by_cases hf : (m.field? field).isSome = true
      · simp [search_known hm hf, asked, hknows, hf, firstError, hm]
      · have hfirst : firstError lookup (asked lookup field (table t :: rest)) =
            firstError lookup (asked lookup field rest) := by
          simp [asked, hknows, hf, firstError, hm]
        rw [search_unknown hm hf, hfirst, List.any_cons, hknows, Bool.eq_false_iff.mpr hf, Bool.false_or]
        exact ih

/-- A search that succeeds has asked all tables up to where the field was found. -/
theorem consulted_search (field : String) : ∀ cs : List Candidate,
    (search lookup field cs).outcome = .ok () → (search lookup field cs).consulted = asked lookup field cs
  | [], h => by cases h
  | .given :: rest, _ => rfl
  | .table t :: rest, h => by
    cases hm : lookup t with
    | error err =>
      rw [search_error hm] at h
      cases h
    | ok m =>
      have hknows : (table t).knows lookup field = (m.field? field).isSome := by simp [knows, hm]
      by_cases hf : (m.field? field).isSome = true
      · simp [search_known hm hf, asked, hknows, hf]
      · rw [search_unknown hm hf] at h ⊢
        have ih := consulted_search field rest h
        simp [asked, hknows, hf, ih]

end Sql

end EntitySql
