import EntitySql.Proofs.Model.Reachable
import EntitySql.Proofs.Sql.Demand

namespace EntitySql

/-- What has to hold for a command to be built. -/
inductive Condition where
  /-- A demand of the expressions and sources in a command. -/
  | demand (d : Demand)
  /-- A field of the table that a command is about. -/
  | field (t : TypeId) (name : String)
  /-- A rule of its own, with the error for breaking it. -/
  | rule (holds : Bool) (err : Error)

namespace Condition

variable (lookup : TypeId → Except Error Model)

/-- The types whose models are needed to see whether a condition is met. The table that a command is
about has been asked for before its fields. -/
def asked : Condition → List TypeId
  | demand d => d.asked lookup
  | field _ _ | rule _ _ => []

def failure? : Condition → Option Error
  | demand d => d.failure? lookup
  | field t name =>
    match lookup t with
    | .ok m => if (m.field? name).isSome then none else some (.invalidField name)
    | .error err => some err
  | rule holds err => if holds then none else some err

def check : Condition → Emission Unit
  | demand d => d.check lookup
  | k => ⟨[], [], ending (k.failure? lookup)⟩

variable {lookup}

theorem outcome_check (k : Condition) : (k.check lookup).outcome = ending (k.failure? lookup) := by
  cases k with
  | demand d => exact d.outcome_check
  | field t name => rfl
  | rule holds err => rfl

theorem consulted_check {k : Condition} (h : (k.check lookup).outcome = .ok ()) :
    (k.check lookup).consulted = k.asked lookup := by
  cases k with
  | demand d => exact Demand.consulted_check h
  | field t name => rfl
  | rule holds err => rfl

end Condition

/-- The conditions of an assignment to a field of a table, after those of taking a value for it. -/
def Assignable.conditions (t : TypeId) (taking : String → List Condition) : Assignable → List Condition
  | assign field value => .field t field :: (value.demands (.table ⟨t, none⟩)).map .demand
  | copy field => taking field ++ [.field t field]

def OnConflict.conditions (dialect : String) (t : TypeId) (oc : OnConflict) : List Condition :=
  let assigns := oc.assigns.flatMap (·.conditions t fun _ => [])
  if dialect = Dialect.mysql.name then
    .rule (!oc.assigns.isEmpty)
      (.unsupportedOnConflict "ON DUPLICATE KEY UPDATE requires at least one assignment") :: assigns
  else if dialect = Dialect.postgres.name then
    .rule (!oc.targets.isEmpty || oc.assigns.isEmpty)
      (.unsupportedOnConflict "DO UPDATE requires a conflict target") ::
        (oc.targets.map (.field t) ++ assigns)
  else [.rule false (.unsupportedOnConflict "standard SQL has no upsert syntax")]

/-- The condition for taking the value of a field from the entity of an update. -/
def Updating.taking (u : Updating) (field : String) : List Condition :=
  [.rule u.source.isSome
    (.invalidAssignment ("column " ++ field ++ " needs an entity to read its value from"))]

def Command.conditions (dialect : String) : Command → List Condition
  | .select s =>
    .rule s.refused.isNone (.unsupportedExpression (s.refused.getD "")) :: s.query.demands.map .demand
  | .insert i =>
    .rule (!i.rows.isEmpty) .emptyInsertRow :: .demand (.model i.entity) ::
      (i.fields.map (.field i.entity) ++ i.onConflict.toList.flatMap (·.conditions dialect i.entity))
  | .update u =>
    .rule (!u.assigns.isEmpty) .emptyUpdateAssignment :: .demand (.model u.entity) ::
      (u.assigns.flatMap (·.conditions u.entity u.taking) ++
        (Predicate.demandsAll (.table ⟨u.entity, none⟩) u.conditions).map .demand)
  | .delete d =>
    .demand (.model d.entity) :: (Predicate.demandsAll (.table ⟨d.entity, none⟩) d.conditions).map .demand
  | .raw _ => []

open Emission (Checks)

/-- The demands in a part of a command are conditions of the command. -/
theorem Emission.Checks.lift {α : Type} {lookup : TypeId → Except Error Model} {e : Emission α}
    {ds : List Demand} (h : Checks (Demand.check lookup) e ds) :
    Checks (Condition.check lookup) e (ds.map .demand) := by
  rw [Checks, List.forM_map]
  exact h

namespace Condition

variable {α : Type} {lookup : TypeId → Except Error Model}

private theorem checks_kept {err : Error} {e : Emission α} {ks : List Condition}
    (he : Checks (check lookup) e ks) : Checks (check lookup) e (rule true err :: ks) :=
  Checks.passed (show check lookup (rule true err) = pure () from rfl) he

private theorem checks_broken (err : Error) (ks : List Condition) :
    Checks (check lookup) (Emission.fail err : Emission α) (rule false err :: ks) :=
  Checks.refused (show check lookup (rule false err) = Emission.fail err from rfl) ks

end Condition

section

variable {lookup : TypeId → Except Error Model} {t : TypeId} {m : Model} (hm : lookup t = .ok m)

include hm

private theorem Model.checks_requireField (name : String) :
    Checks (Condition.check lookup) (.ofExcept (m.requireField name)) [.field t name] := by
  refine .one ?_
  cases hf : m.field? name <;>
    simp [requireField, hf, Condition.check, Condition.failure?, hm, Emission.silent, Emission.ofExcept,
      Except.map, ending]

private theorem Model.checks_requireFields : ∀ names : List String,
    Checks (Condition.check lookup) (.ofExcept (names.mapM m.requireField)) (names.map (.field t))
  | [] => .pure []
  | name :: rest => by
    have hsplit : Emission.ofExcept ((name :: rest).mapM m.requireField) =
        (do
          let f ← Emission.ofExcept (m.requireField name)
          let fs ← Emission.ofExcept (rest.mapM m.requireField)
          pure (f :: fs)) := by
      rw [List.mapM_cons]
      cases m.requireField name with
      | error err => rfl
      | ok f => cases rest.mapM m.requireField <;> rfl
    rw [hsplit]
    exact (checks_requireField hm name).bind fun f _ =>
      (checks_requireFields rest).before fun fs => .pure (f :: fs)

private theorem Compiler.checks_insertedFields (names : List String) :
    Checks (Condition.check lookup) (.ofExcept (insertedFields m names)) (names.map (.field t)) := by
  cases names with
  | nil => exact .pure m.fields
  | cons name rest => exact Model.checks_requireFields hm (name :: rest)

namespace Dialect

private theorem checks_writeColumn (name : String) :
    Checks (Condition.check lookup) (writeColumn m name) [.field t name] :=
  (m.checks_requireField hm name).before fun f => .name f.column

omit hm in
/-- A column that was written is that of a known field. -/
theorem field?_of_writeColumn {name : String} {u : Unit} (h : (writeColumn m name).outcome = .ok u) :
    ∃ f, m.field? name = some f := by
  cases hf : m.field? name with
  | some f => exact ⟨f, rfl⟩
  | none =>
    rw [writeColumn, Model.requireField, hf] at h
    cases h

variable (hl : Sql.Faithful lookup)

include hl

private theorem checks_upsertItem {incoming : String → Emission Unit}
    (hi : ∀ column, Checks (Condition.check lookup) (incoming column) []) : ∀ a : Assignable,
    Checks (Condition.check lookup)
      (emitUpsertItem incoming (Sql.emitOperand lookup (Compiler.scopeOf t)) m a)
      (a.conditions t fun _ => [])
  | .assign field value =>
    (checks_writeColumn hm field).next (.afterText (Sql.checks_operand hl _ value).lift)
  | .copy field =>
    (m.checks_requireField hm field).before fun f => .afterName (.afterText (hi f.column))

private theorem checks_upsertItems {incoming : String → Emission Unit}
    (hi : ∀ column, Checks (Condition.check lookup) (incoming column) []) (assigns : List Assignable) :
    Checks (Condition.check lookup)
      (Emission.separated (emitUpsertItem incoming (Sql.emitOperand lookup (Compiler.scopeOf t)) m) assigns)
      (assigns.flatMap (·.conditions t fun _ => [])) :=
  .separated fun a _ => checks_upsertItem hm hl hi a

private theorem checks_mysql (oc : OnConflict) :
    Checks (Condition.check lookup)
      (mysql.upsert (Sql.emitOperand lookup (Compiler.scopeOf t)) m oc)
      (oc.conditions mysql.name t) := by
  obtain ⟨targets, assigns⟩ := oc
  rw [OnConflict.conditions, if_pos rfl]
  cases assigns with
  | nil => exact Condition.checks_broken _ _
  | cons a rest =>
    have hincoming (column : String) : Checks (Condition.check lookup) (mysql.incoming column) [] :=
      .afterText (.afterName (.text ")"))
    exact Condition.checks_kept (.afterText (checks_upsertItems hm hl hincoming (a :: rest)))

private theorem checks_postgres (oc : OnConflict) :
    Checks (Condition.check lookup)
      (postgres.upsert (Sql.emitOperand lookup (Compiler.scopeOf t)) m oc)
      (oc.conditions postgres.name t) := by
  obtain ⟨targets, assigns⟩ := oc
  rw [OnConflict.conditions, if_neg (by decide), if_pos rfl]
  cases targets with
  | nil =>
    cases assigns with
    | nil => exact Condition.checks_kept (.text _)
    | cons a rest => exact Condition.checks_broken _ _
  | cons target others =>
    have hincoming (column : String) : Checks (Condition.check lookup) (postgres.incoming column) [] :=
      .afterText (.name column)
    have htargets : Checks (Condition.check lookup) (Emission.separated (writeColumn m) (target :: others))
        ((target :: others).map (.field t)) := by
      rw [List.map_eq_flatMap]
      exact .separated fun name _ => checks_writeColumn hm name
    refine Condition.checks_kept (.afterText (htargets.next (.afterText ?_)))
    cases assigns with
    | nil => exact .text _
    | cons a rest => exact .afterText (checks_upsertItems hm hl hincoming (a :: rest))

private theorem checks_upsert {d : Dialect} (hd : d ∈ given) (oc : OnConflict) :
    Checks (Condition.check lookup) (d.upsert (Sql.emitOperand lookup (Compiler.scopeOf t)) m oc)
      (oc.conditions d.name t) := by
  rcases eq_of_given hd with rfl | rfl | rfl
  · exact Condition.checks_broken _ _
  · exact checks_mysql hm hl oc
  · exact checks_postgres hm hl oc

end Dialect

end

private theorem Model.mem_of_requireFields {m : Model} {names : List String} {fields : List Field}
    (h : names.mapM m.requireField = .ok fields) : ∀ f ∈ fields, f ∈ m.fields := by
  induction names generalizing fields with
  | nil =>
    cases h
    exact nofun
  | cons name rest ih =>
    rw [List.mapM_cons] at h
    cases hf : m.field? name with
    | none =>
      simp [requireField, hf] at h
      cases h
    | some f =>
      cases hrest : rest.mapM m.requireField with
      | error err =>
        simp [requireField, hf, hrest] at h
        cases h
      | ok fs =>
        simp [requireField, hf, hrest] at h
        cases h
        exact List.forall_mem_cons.mpr ⟨mem_of_field? hf, ih hrest⟩

namespace Compiler

theorem mem_insertedFields {m : Model} {names : List String} {fields : List Field}
    (h : insertedFields m names = .ok fields) : ∀ f ∈ fields, f ∈ m.fields := by
  cases names with
  | nil =>
    cases h
    exact fun f hf => hf
  | cons name rest => exact Model.mem_of_requireFields h

variable {c : Compiler} (hl : Sql.Faithful c.lookup)

/-- The value of a field of a readable entity. -/
theorem checks_bindField {m : Model} {e : Entity} {field : String} {v : Value}
    (hv : c.access.read m e field = .ok v) : Checks (Condition.check c.lookup) (c.bindField m e field) [] := by
  rw [bindField, hv]
  exact .bound v

private theorem checks_model (t : TypeId) :
    Checks (Condition.check c.lookup) (Emission.model c.lookup t) [.demand (.model t)] :=
  .one rfl

include hl

private theorem checks_selection (s : Selection) :
    Checks (Condition.check c.lookup) (c.emitSelection s) ((Command.select s).conditions c.dialect.name) := by
  obtain ⟨entity, query, refused⟩ := s
  cases refused with
  | some message => exact Condition.checks_broken _ _
  | none => exact Condition.checks_kept (Sql.checks_query hl query).lift

private theorem checks_insertion {i : Insertion} (hd : i.onConflict.isSome → c.dialect ∈ Dialect.given)
    (hread : ∀ e ∈ i.rows, ∀ m, c.lookup i.entity = .ok m → ∀ f ∈ m.fields,
      ∃ v, c.access.read m e f.name = .ok v) :
    Checks (Condition.check c.lookup) (c.emitInsertion i) ((Command.insert i).conditions c.dialect.name) := by
  obtain ⟨entity, rows, names, onConflict⟩ := i
  cases rows with
  | nil => exact Condition.checks_broken _ _
  | cons row rest =>
    refine Condition.checks_kept ((checks_model entity).bind fun m hm => ?_)
    refine (checks_insertedFields hm names).bind fun fields hfields => ?_
    have hcolumns : Checks (Condition.check c.lookup)
        (Emission.separated (fun f : Field => Emission.name f.column) fields) [] :=
      .list fun f _ => .name f.column
    have hrows : Checks (Condition.check c.lookup) (Emission.separated (c.emitRow m fields) (row :: rest)) [] := by
      refine .list fun e he => .bracketed (.list fun f hf => ?_)
      obtain ⟨v, hv⟩ := hread e he m hm f (mem_insertedFields hfields f hf)
      exact checks_bindField hv
    refine .afterText (.afterName (.afterText (hcolumns.next (.afterText (hrows.next ?_)))))
    cases onConflict with
    | none => exact .pure ()
    | some oc =>
      have hupsert := Dialect.checks_upsert hm hl (hd rfl) oc
      simpa using hupsert

private theorem checks_assignable {u : Updating} {m : Model} (hm : c.lookup u.entity = .ok m)
    (hread : ∀ e ∈ u.source, ∀ f ∈ m.fields, ∃ v, c.access.read m e f.name = .ok v) : ∀ a : Assignable,
    Checks (Condition.check c.lookup) (c.emitAssignable u m a) (a.conditions u.entity u.taking)
  | .assign field value =>
    (Dialect.checks_writeColumn hm field).next (.afterText (Sql.checks_operand hl _ value).lift)
  | .copy field => by
    rw [emitAssignable, Assignable.conditions, Updating.taking]
    cases hsource : u.source with
    | none => exact Condition.checks_broken _ _
    | some e =>
      refine Condition.checks_kept ((Dialect.checks_writeColumn hm field).bind fun _ ho => .afterText ?_)
      -- The value is read only after the column was written, so the field is known.
      obtain ⟨f, hf⟩ := Dialect.field?_of_writeColumn ho
      obtain ⟨v, hv⟩ := hread e hsource f (Model.mem_of_field? hf)
      rw [Model.name_of_field? hf] at hv
      exact checks_bindField hv

private theorem checks_updating {u : Updating}
    (hread : ∀ e ∈ u.source, ∀ m, c.lookup u.entity = .ok m → ∀ f ∈ m.fields,
      ∃ v, c.access.read m e f.name = .ok v) :
    Checks (Condition.check c.lookup) (c.emitUpdating u) ((Command.update u).conditions c.dialect.name) := by
  obtain ⟨entity, source, assigns, conditions⟩ := u
  cases assigns with
  | nil => exact Condition.checks_broken _ _
  | cons first rest =>
    refine Condition.checks_kept ((checks_model entity).bind fun m hm => ?_)
    have hassign := checks_assignable (u := ⟨entity, source, first :: rest, conditions⟩) hl hm
      fun e he => hread e he m hm
    have hassigns := Checks.separated fun a (_ : a ∈ first :: rest) => hassign a
    exact .afterText (.afterName (.afterText (hassigns.next (Sql.checks_conditions hl _ _ _).lift)))

private theorem checks_deletion (d : Deletion) :
    Checks (Condition.check c.lookup) (c.emitDeletion d) ((Command.delete d).conditions c.dialect.name) :=
  (checks_model d.entity).bind fun _ _ =>
    .afterText (.afterName (Sql.checks_conditions hl _ "WHERE" d.conditions).lift)

end Compiler

def Command.entities : Command → List Entity
  | .insert i => i.rows
  | .update u => u.source.toList
  | _ => []

/-- The walk over a command that can read its entities meets the conditions of the command. -/
theorem Compiler.checks_emit {c : Compiler} (hl : Sql.Faithful c.lookup) (cmd : Command)
    (hd : cmd.onConflict?.isSome → c.dialect ∈ Dialect.given)
    (hread : ∀ e ∈ cmd.entities, ∀ t ∈ cmd.entity?, ∀ m, c.lookup t = .ok m → ∀ f ∈ m.fields,
      ∃ v, c.access.read m e f.name = .ok v) :
    Checks (Condition.check c.lookup) (c.emit cmd) (cmd.conditions c.dialect.name) := by
  cases cmd with
  | select s => exact checks_selection hl s
  | insert i => exact checks_insertion hl hd fun e he => hread e he i.entity rfl
  | update u => exact checks_updating hl fun e he => hread e (Option.mem_toList.mpr he) u.entity rfl
  | delete d => exact checks_deletion hl d
  | raw r => exact .pure ()

end EntitySql
