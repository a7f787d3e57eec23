import EntitySql.Proofs.Sql.Frame
import EntitySql.Sql.Construction

namespace EntitySql

namespace Builder

variable {schema : Schema} {lookup : TypeId → Except Error Model} {scope : Option TableRef} {access : Access}

private theorem writes_field (m : Model) (field : String) :
    Writes schema lookup scope (writeField m field) (Dialect.writeColumn m field) :=
  (Writes.ofExcept _).bind fun f => .name f.column

private theorem writes_upsertItem {incoming : String → Build Unit} {incoming' : String → Emission Unit}
    (hi : ∀ column, Writes schema lookup scope (incoming column) (incoming' column)) (m : Model) : ∀ a,
    Writes schema lookup scope (writeUpsertItem schema incoming m a)
      (Dialect.emitUpsertItem incoming' (Sql.emitOperand lookup scope) m a)
  | .assign field value => (writes_field m field).next ((Writes.text _).next (writes_operand scope value))
  | .copy _ => (Writes.ofExcept _).bind fun f => (Writes.name _).next ((Writes.text _).next (hi f.column))

private theorem writes_values (column : String) :
    Writes schema lookup scope (writeValues column) (Dialect.mysql.incoming column) :=
  (Writes.text _).next ((Writes.name column).next (.text _))

private theorem writes_excluded (column : String) :
    Writes schema lookup scope (writeExcluded column) (Dialect.postgres.incoming column) :=
  (Writes.text _).next (.name column)

private theorem writes_mysql (m : Model) (oc : OnConflict) :
    Writes schema lookup scope (writeUpsert schema m oc .mysql)
      (Dialect.mysql.upsert (Sql.emitOperand lookup scope) m oc) := by
  obtain ⟨targets, assigns⟩ := oc
  cases assigns with
  | nil => exact .fail _
  | cons a rest => exact (Writes.text _).next (.separated (writes_upsertItem writes_values m) (a :: rest))

private theorem writes_postgres (m : Model) (oc : OnConflict) :
    Writes schema lookup scope (writeUpsert schema m oc .postgres)
      (Dialect.postgres.upsert (Sql.emitOperand lookup scope) m oc) := by
  obtain ⟨targets, assigns⟩ := oc
  cases targets with
  | nil =>
    cases assigns with
    | nil => exact .text _
    | cons a rest => exact .fail _
  | cons target others =>
    have htargets : Writes schema lookup scope (separated (writeField m) (target :: others))
        (Emission.separated (Dialect.writeColumn m) (target :: others)) := .separated (writes_field m) _
    cases assigns with
    | nil => exact (Writes.text _).next (htargets.next ((Writes.text _).next (.text _)))
    | cons a rest =>
      exact (Writes.text _).next (htargets.next ((Writes.text _).next
        ((Writes.text _).next (.separated (writes_upsertItem writes_excluded m) (a :: rest)))))

private theorem writes_upsert (m : Model) (oc : OnConflict) : ∀ p : Product,
    Writes schema lookup scope (writeUpsert schema m oc p)
      (p.dialect.upsert (Sql.emitOperand lookup scope) m oc)
  | .standard => .fail _
  | .mysql => writes_mysql m oc
  | .postgres => writes_postgres m oc
  | .other d => fun b hview hscope => by
    subst hview hscope
    rfl

private theorem writes_value (c : Compiler) (m : Model) (e : Entity) (field : String) :
    Writes schema lookup scope (writeValue c.access m e field) (c.bindField m e field) :=
  (Writes.ofExcept _).bind .bound

private theorem writes_row (c : Compiler) (m : Model) (fields : List Field) (e : Entity) :
    Writes schema lookup scope (bracketed (separated (fun f => writeValue c.access m e f.name) fields))
      (c.emitRow m fields e) := by
  have hvalue (f : Field) : Writes schema lookup scope (writeValue c.access m e f.name) (c.bindField m e f.name) :=
    writes_value c m e f.name
  exact (Writes.separated hvalue fields).bracketed

private theorem writes_insertion (p : Product) (i : Insertion) :
    Writes schema lookup none (writeInsertion schema access p i)
      (Compiler.emitInsertion ⟨p.dialect, access, lookup⟩ i) := by
  let c : Compiler := ⟨p.dialect, access, lookup⟩
  rw [writeInsertion, Compiler.emitInsertion]
  split
  · exact .fail _
  refine (Writes.model ⟨i.entity, none⟩).bind fun m => (Writes.ofExcept _).bind fun fields => .within ?_
  have hcolumn (f : Field) : Writes schema lookup (Compiler.scopeOf i.entity) (writeName f.column)
      (Emission.name f.column) := .name f.column
  have hrow (e : Entity) : Writes schema lookup (Compiler.scopeOf i.entity)
      (bracketed (separated (fun f => writeValue access m e f.name) fields)) (c.emitRow m fields e) :=
    writes_row c m fields e
  refine (Writes.text _).next ((Writes.name _).next ((Writes.text _).next ?_))
  refine (Writes.separated hcolumn fields).next ((Writes.text _).next ?_)
  refine (Writes.separated hrow i.rows).next ?_
  cases i.onConflict with
  | some oc => exact writes_upsert m oc p
  | none => exact .pure ()

private theorem writes_assignable (c : Compiler) (u : Updating) (m : Model) : ∀ a,
    Writes schema c.lookup (Compiler.scopeOf u.entity) (writeAssignable schema c.access u m a)
      (c.emitAssignable u m a)
  | .assign field value => (writes_field m field).next ((Writes.text _).next (writes_operand _ value))
  | .copy field => by
    rw [writeAssignable, Compiler.emitAssignable]
    cases u.source with
    | none => exact .fail _
    | some e => exact (writes_field m field).next ((Writes.text _).next (writes_value c m e field))

private theorem writes_updating (c : Compiler) (u : Updating) :
    Writes schema c.lookup none (writeUpdating schema c.access u) (c.emitUpdating u) := by
  rw [writeUpdating, Compiler.emitUpdating]
  split
  · exact .fail _
  refine (Writes.model ⟨u.entity, none⟩).bind fun m => .within ?_
  exact (Writes.text _).next ((Writes.name _).next ((Writes.text _).next
    ((Writes.separated (writes_assignable c u m) _).next (writes_conditions _ "WHERE" u.conditions))))

private theorem writes_deletion (c : Compiler) (d : Deletion) :
    Writes schema c.lookup none (writeDeletion schema d) (c.emitDeletion d) :=
  (Writes.model ⟨d.entity, none⟩).bind fun _ => .within
    ((Writes.text _).next ((Writes.name _).next (writes_conditions _ "WHERE" d.conditions)))

private theorem writes_selection (c : Compiler) (s : Selection) :
    Writes schema c.lookup none (writeSelection schema s) (c.emitSelection s) := by
  rw [writeSelection, Compiler.emitSelection]
  cases s.refused with
  | some message => exact .fail _
  | none => exact writes_query none s.query

private theorem writes_command (p : Product) : ∀ cmd : Command,
    Writes schema lookup none (writeCommand schema access p cmd) (Compiler.emit ⟨p.dialect, access, lookup⟩ cmd)
  | .select s => writes_selection ⟨p.dialect, access, lookup⟩ s
  | .insert i => writes_insertion p i
  | .update u => writes_updating ⟨p.dialect, access, lookup⟩ u
  | .delete d => writes_deletion ⟨p.dialect, access, lookup⟩ d
  | .raw _ => .pure ()

end Builder

namespace Registry

variable {schema : Schema}

/-- What a command comes to in a registry: the statement, or the error, that the compiler makes of it with the
models that the registry shows, and the registry with the models of the types that were asked for. -/
theorem build_eq (r : Registry) (schema : Schema) (access : Access) (p : Product) (cmd : Command) :
    let c : Compiler := ⟨p.dialect, access, r.view schema⟩
    r.build schema access p cmd = (c.build cmd, r.consultAll schema (c.emit cmd).consulted) := by
  intro c
  have hrun : (Builder.writeCommand schema access p cmd).run (.empty r p.dialect) =
      (Builder.empty r p.dialect).put schema (c.emit cmd) := Builder.writes_command p cmd _ rfl rfl
  cases cmd with
  | raw w => rfl
  | _ =>
    simp only [build, hrun, Compiler.build, Builder.put]
    cases (c.emit _).outcome with
    | error err => rfl
    | ok _ => simp [Except.map, Builder.finish, Builder.empty, Builder.argCount, Spelling.statement, c]

/-- A type that need not be parsed any more: its model is kept, or it has none. -/
def Settled (schema : Schema) (r : Registry) (t : TypeId) : Prop :=
  r.cached? t ≠ none ∨ ∃ err, schema.parse t = .error err

private theorem consult_of_settled {r : Registry} {t : TypeId} (h : r.Settled schema t) : r.consult schema t = r := by
  unfold consult
  split
  · rfl
  · rename_i hnone
    rcases h with hkept | ⟨err, herr⟩
    · exact absurd hnone hkept
    · rw [herr]

/-- Asking for a type takes nothing away of what is kept. -/
theorem cached?_consult {r : Registry} {t : TypeId} {m : Model} (h : r.cached? t = some m) (u : TypeId) :
    (r.consult schema u).cached? t = some m := by
  unfold consult
  split
  · exact h
  · rename_i hnone
    split
    · rw [cached?_insert, if_neg]
      · exact h
      · rintro rfl
        rw [h] at hnone
        cases hnone
    · exact h

private theorem settled_consult (r : Registry) (t : TypeId) : (r.consult schema t).Settled schema t := by
  unfold consult
  split
  · rename_i m hm
    left
    rw [hm]
    exact Option.some_ne_none m
  · split
    · rename_i m hm
      left
      rw [cached?_insert, if_pos rfl]
      exact Option.some_ne_none m
    · rename_i err herr
      exact .inr ⟨err, herr⟩

private theorem Settled.consult {r : Registry} {t : TypeId} (h : r.Settled schema t) (u : TypeId) :
    (r.consult schema u).Settled schema t := by
  refine h.imp_left fun hkept => ?_
  obtain ⟨m, hm⟩ := Option.ne_none_iff_exists'.mp hkept
  rw [cached?_consult hm u]
  exact Option.some_ne_none m

private theorem cached?_consultAll {t : TypeId} {m : Model} : ∀ (types : List TypeId) {r : Registry},
    r.cached? t = some m → (r.consultAll schema types).cached? t = some m
  | [], _, h => h
  | u :: rest, _, h => cached?_consultAll rest (cached?_consult h u)

private theorem Settled.consultAll {t : TypeId} : ∀ (types : List TypeId) {r : Registry},
    r.Settled schema t → (r.consultAll schema types).Settled schema t
  | [], _, h => h
  | u :: rest, _, h => Settled.consultAll rest (h.consult u)

private theorem settled_consultAll {t : TypeId} : ∀ {types : List TypeId} (r : Registry),
    t ∈ types → (r.consultAll schema types).Settled schema t
  | u :: rest, r, h => by
    rcases List.mem_cons.mp h with rfl | h
    · exact Settled.consultAll rest (r.settled_consult t)
    · exact settled_consultAll (r.consult schema u) h

private theorem consultAll_of_settled {r : Registry} : ∀ {types : List TypeId},
    (∀ t ∈ types, r.Settled schema t) → r.consultAll schema types = r
  | [], _ => rfl
  | t :: rest, h => by
    have hfirst : r.consult schema t = r := consult_of_settled (h t List.mem_cons_self)
    have hrest := consultAll_of_settled fun u hu => h u (List.mem_cons_of_mem t hu)
    rw [consultAll, List.foldl_cons, hfirst]
    exact hrest

private theorem consultAll_twice (r : Registry) (types : List TypeId) :
    (r.consultAll schema types).consultAll schema types = r.consultAll schema types :=
  consultAll_of_settled fun _ ht => r.settled_consultAll ht

/-- What callers do with a registry. -/
inductive Use where
  | get (t : TypeId)
  | register (t : TypeId) (options : List ModelOption)
  | build (access : Access) (p : Product) (cmd : Command)

def Use.registers : Use → Bool
  | register _ _ => true
  | get _ | build _ _ _ => false

def use (schema : Schema) (r : Registry) : Use → Registry
  | .get t => r.consult schema t
  | .register t options => r.register schema t options
  | .build access p cmd => (r.build schema access p cmd).2

def after (schema : Schema) (r : Registry) (uses : List Use) : Registry := uses.foldl (use schema) r

private theorem view_register (r : Registry) (t : TypeId) (options : List ModelOption) (u : TypeId) :
    (r.register schema t options).view schema u =
      match registered schema t options with
      | .ok m => if u = t then .ok m else r.view schema u
      | .error _ => r.view schema u := by
  unfold register
  cases registered schema t options with
  | error err => rfl
  | ok m =>
    by_cases hu : u = t
    · simp only [view, cached?_insert, if_pos hu]
    · simp only [view, cached?_insert, if_neg hu]

/-- A use other than a registration has no say in the models that are shown. -/
theorem view_use {u : Use} (h : u.registers = false) (r : Registry) :
    (r.use schema u).view schema = r.view schema := by
  cases u with
  | get t => exact funext fun _ => view_consult r schema t _
  | register t options => cases h
  | build access p cmd =>
    rw [use, build_eq]
    exact funext fun _ => view_consultAll r schema _ _

private theorem view_use_congr {r r' : Registry} (h : r.view schema = r'.view schema) (u : Use) :
    (r.use schema u).view schema = (r'.use schema u).view schema := by
  by_cases hu : u.registers = true
  · cases u with
    | register t options => exact funext fun _ => by simp only [use, view_register, h]
    | get t => cases hu
    | build access p cmd => cases hu
  · have hfalse := Bool.eq_false_iff.mpr hu
    rw [view_use hfalse, view_use hfalse, h]

/-- The models that are shown are those of the registrations alone. -/
theorem view_after : ∀ (uses : List Use) {r r' : Registry}, r.view schema = r'.view schema →
    (r.after schema uses).view schema = (r'.after schema (uses.filter (·.registers))).view schema
  | [], _, _, h => h
  | u :: rest, r, r', h => by
    by_cases hu : u.registers = true
    · rw [List.filter_cons_of_pos hu]
      exact view_after rest (view_use_congr h u)
    · rw [List.filter_cons_of_neg hu]
      exact view_after rest ((view_use (Bool.eq_false_iff.mpr hu) r).trans h)

/-- The result of a command depends on no more of a registry than the models that it shows. -/
theorem build_congr {r r' : Registry} (h : r.view schema = r'.view schema) (access : Access) (p : Product)
    (cmd : Command) : (r.build schema access p cmd).1 = (r'.build schema access p cmd).1 := by
  rw [build_eq, build_eq, h]

/-- Wherever a command is built, after whatever use of a registry, building it again gives the same statement or
the same error and leaves the registry as it is. What was kept before stays. The result is that of the registry
where any types were asked for beforehand, and that of the registry of which nothing was ever asked but to
register what was registered: which models are kept already has no say in it. -/
theorem build_again (schema : Schema) (access : Access) (p : Product) (cmd : Command) (r : Registry)
    (uses : List Use) :
    let before := r.after schema uses
    let first := before.build schema access p cmd
    first.2.build schema access p cmd = first ∧
      (∀ t m, before.cached? t = some m → first.2.cached? t = some m) ∧
      (∀ types, ((before.consultAll schema types).build schema access p cmd).1 = first.1) ∧
      ((r.after schema (uses.filter (·.registers))).build schema access p cmd).1 = first.1 := by
  intro before first
  let c : Compiler := ⟨p.dialect, access, before.view schema⟩
  let asked := (c.emit cmd).consulted
  have hfirst : first = (c.build cmd, before.consultAll schema asked) := before.build_eq schema access p cmd
  have hview : (before.consultAll schema asked).view schema = before.view schema :=
    funext fun _ => view_consultAll before schema asked _
  refine ⟨?_, fun t m hm => ?_, fun types => ?_, ?_⟩
  · -- The second build sees the same models, so it asks for the same types, which are settled by now.
    rw [hfirst, build_eq, hview]
    exact Prod.ext rfl (consultAll_twice before asked)
  · rw [hfirst]
    exact cached?_consultAll asked hm
  · exact build_congr (funext fun _ => view_consultAll before schema types _) access p cmd
  · exact build_congr (view_after uses rfl).symm access p cmd

/-- A field that the left table of a join, registered under another name, does not have: the first build keeps
the model that it parses on the right, and nothing changes from then on. -/
theorem build_again_join :
    let info (name field : String) : TypeInfo :=
      .struct ⟨name, .named name, 8, none, [⟨field, none, 0, 8, ⟨.integer .i64⟩⟩]⟩
    let schema : Schema := fun name => info name (if name = "Note" then "Id" else "FullName")
    let note : TypeId := .named "Note"
    let author : TypeId := .named "Author"
    let source : TableRef := .join .inner (.table ⟨note, none⟩) (.table ⟨author, some "a"⟩) (.on [])
    let cmd : Command := .select ((Selection.all note).fromSource source |>.selectExpr (.column (.named "FullName")))
    let before := Registry.empty.after schema [.get note, .register note [.table "notes"]]
    let first := before.build schema .byOffset .postgres cmd
    first.1.toOption = some ⟨"SELECT \"a\".\"full_name\" FROM \"notes\" INNER JOIN \"author\" AS \"a\";", []⟩ ∧
      before.size = 1 ∧ first.2.size = 2 ∧ first.2.build schema .byOffset .postgres cmd = first ∧
      first.2.cached? note = some ⟨"notes", note, [⟨"Id", "id", 0, 8, ⟨.integer .i64⟩, 0⟩]⟩ := by
  intro info schema note author source cmd before first
  have hnote : before.cached? note = some ⟨"notes", note, [⟨"Id", "id", 0, 8, ⟨.integer .i64⟩, 0⟩]⟩ := by decide +kernel
  obtain ⟨hagain, hkept, -, -⟩ :=
    build_again schema .byOffset .postgres cmd .empty [.get note, .register note [.table "notes"]]
  exact ⟨by decide +kernel, by decide +kernel, by decide +kernel, hagain, hkept note _ hnote⟩

end Registry

end EntitySql
