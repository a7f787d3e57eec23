import EntitySql.Sql.Command

namespace EntitySql

def isWordingChar (c : Char) : Bool :=
  c.isUpper || [' ', '(', ')', ',', '.', '=', '!', '<', '>', '*'].contains c

/-- A text that a walk writes by itself: capitals, blanks and punctuation, at least one of them. -/
def Wording (s : String) : Prop := (!s.toList.isEmpty && s.toList.all isWordingChar) = true

instance (s : String) : Decidable (Wording s) := inferInstanceAs (Decidable (_ = true))

namespace Wording

theorem iff {s : String} : Wording s ↔ s.toList ≠ [] ∧ ∀ c ∈ s.toList, isWordingChar c = true := by
  simp [Wording]

private theorem append_open {s : String} (hs : Wording s) (n : Nat) :
    Wording (s ++ String.ofList (List.replicate n '(')) := by
  rw [iff] at hs ⊢
  rw [String.toList_append, String.toList_ofList]
  refine ⟨?_, ?_⟩
  · intro h
    exact hs.1 (List.append_eq_nil_iff.mp h).1
  · intro c hc
    rcases List.mem_append.mp hc with hc | hc
    · exact hs.2 c hc
    · rw [List.eq_of_mem_replicate hc]
      decide

private theorem binaryOp (op : BinaryOp) : Wording (" " ++ op.sql ++ " ") := by cases op <;> decide

private theorem prefixOp (op : PrefixOp) : Wording (op.sql ++ " ") := by cases op <;> decide

private theorem joinKind (kind : JoinKind) : Wording (" " ++ kind.sql ++ " ") := by cases kind <;> decide

private theorem aggregate (f : AggregateFunction) : Wording (f.sql ++ "(") := by cases f <;> decide

end Wording

/-- The ways in which the walk over an expression or a query fails, given how models are found. -/
inductive Sql.Failure (lookup : TypeId → Except Error Model) : Error → Prop where
  | model {t : TypeId} {err : Error} (h : lookup t = .error err) : Failure lookup err
  | field (name : String) : Failure lookup (.invalidField name)
  | having : Failure lookup .havingWithoutGroupBy

namespace Emission

variable {α β : Type} {E : Error → Prop}

/-- A walk that writes nothing and fails only as `E` allows. -/
structure Quiet (E : Error → Prop) (e : Emission α) : Prop where
  pieces : e.pieces = []
  outcome : ∀ err, e.outcome = .error err → E err

namespace Quiet

private theorem pure (a : α) : Quiet E (Pure.pure a : Emission α) := ⟨rfl, nofun⟩

private theorem fail {err : Error} (h : E err) : Quiet E (Emission.fail err : Emission α) :=
  ⟨rfl, fun _ he => by cases he; exact h⟩

private theorem ofExcept {r : Except Error α} (h : ∀ err, r = .error err → E err) :
    Quiet E (Emission.ofExcept r) := ⟨rfl, h⟩

private theorem model {lookup : TypeId → Except Error Model} {t : TypeId}
    (h : ∀ err, lookup t = .error err → E err) : Quiet E (Emission.model lookup t) := ⟨rfl, h⟩

private theorem requireField {m : Model} {field : String} (h : E (.invalidField field)) :
    Quiet E (Emission.ofExcept (m.requireField field)) := by
  refine ofExcept fun err he => ?_
  unfold Model.requireField at he
  split at he
  · cases he
  · cases he
    exact h

private theorem bind {e : Emission α} {f : α → Emission β} (he : Quiet E e) (hf : ∀ a, Quiet E (f a)) :
    Quiet E (e >>= f) := by
  rw [bind_def]
  cases ho : e.outcome with
  | error err =>
    rw [andThen_error ho]
    exact ⟨he.pieces, fun _ h => by cases h; exact he.outcome err ho⟩
  | ok a =>
    rw [andThen_ok ho]
    refine ⟨?_, (hf a).outcome⟩
    simp [he.pieces, (hf a).pieces]

private theorem map {e : Emission α} (g : α → β) (he : Quiet E e) : Quiet E (g <$> e) :=
  he.bind fun a => Quiet.pure (g a)

private theorem orElseField {e : Emission α} {f : Unit → Emission α} (he : Quiet E e) (hf : Quiet E (f ())) :
    Quiet E (e.orElseField f) := by
  unfold Emission.orElseField
  split
  · exact ⟨by simp [he.pieces, hf.pieces], hf.outcome⟩
  · exact he

end Quiet

/-- A walk that writes text before anything else. -/
def Led (e : Emission α) : Prop := ∀ p ∈ e.pieces.head?, ∃ s, p = .text s

namespace Led

private theorem pure (a : α) : Led (Pure.pure a : Emission α) := fun _ h => by cases h

private theorem text (s : String) : Led (Emission.text s) := fun _ h => by cases h; exact ⟨s, rfl⟩

private theorem afterText (s : String) (next : Emission α) : Led (Emission.text s >>= fun _ => next) :=
  fun _ h => by cases h; exact ⟨s, rfl⟩

private theorem bind {e : Emission α} {f : α → Emission β} (he : Led e) (hf : ∀ a, Led (f a)) :
    Led (e >>= f) := by
  rw [bind_def]
  cases ho : e.outcome with
  | error err => rw [andThen_error ho]; exact he
  | ok a =>
    rw [andThen_ok ho]
    intro p hp
    cases hpieces : e.pieces with
    | nil => exact hf a p (by simpa [hpieces] using hp)
    | cons q rest => exact he p (by simpa [hpieces] using hp)

end Led

/-- The ways in which walks are put together, as rules for a property that every walk is to have. -/
structure Composed (lookup : TypeId → Except Error Model) (E : Error → Prop)
    (P : Emission Unit → Prop) : Prop where
  failure {err : Error} (hf : Sql.Failure lookup err) : E err
  quiet {e : Emission Unit} (he : Quiet E e) : P e
  piece (p : Piece) (hp : ∀ s, p = .text s → Wording s) : P (write p)
  afterQuiet {α : Type} {e : Emission α} {f : α → Emission Unit} (he : Quiet E e)
    (hf : ∀ a, P (f a)) : P (e >>= f)
  afterText {s : String} {next : Emission Unit} (hs : Wording s) (hn : P next) :
    P (text s >>= fun _ => next)
  beforeLed {e next : Emission Unit} (he : P e) (hn : P next) (hled : Led next) :
    P (e >>= fun _ => next)

namespace Composed

variable {lookup : TypeId → Except Error Model} {P : Emission Unit → Prop} (h : Composed lookup E P)
include h

private theorem done : P (pure ()) := h.quiet (Quiet.pure ())

private theorem text {s : String} (hs : Wording s) : P (Emission.text s) :=
  h.piece (.text s) fun t ht => by cases ht; exact hs

private theorem name (s : String) : P (Emission.name s) := h.piece (.name s) nofun

private theorem bound (v : Value) : P (Emission.bound v) := h.piece (.bound v) nofun

private theorem raw (r : RawSql) : P (Emission.raw r) := h.piece (.raw r.sql r.args) nofun

/-- A walk, and after it one that begins with text. -/
theorem followed {e next : Emission Unit} (he : P e) (hn : P next ∧ Led next) :
    P (e >>= fun _ => next) :=
  h.beforeLed he hn.1 hn.2

/-- Two walks in a row that both begin with text. -/
theorem trail {e next : Emission Unit} (he : P e ∧ Led e) (hn : P next ∧ Led next) :
    P (e >>= fun _ => next) ∧ Led (e >>= fun _ => next) :=
  ⟨h.followed he.1 hn, he.2.bind fun _ => hn.2⟩

private theorem allowed {α : Type} {e : Emission α} (he : Quiet (Sql.Failure lookup) e) : Quiet E e :=
  ⟨he.pieces, fun err ho => h.failure (he.outcome err ho)⟩

/-- A text between two walks keeps them apart. -/
theorem apart {e next : Emission Unit} {s : String} (he : P e) (hs : Wording s) (hn : P next) :
    P (e >>= fun _ => Emission.text s >>= fun _ => next) :=
  h.beforeLed he (h.afterText hs hn) (Led.afterText s next)

private theorem beforeText {e : Emission Unit} {s : String} (he : P e) (hs : Wording s) :
    P (e >>= fun _ => Emission.text s) :=
  h.beforeLed he (h.text hs) (Led.text s)

private theorem bracketed {e : Emission Unit} (he : P e) : P e.bracketed :=
  h.afterText (by decide) (h.beforeText he (by decide))

private theorem separated {α : Type} {each : α → Emission Unit} (ha : ∀ a, P (each a)) :
    ∀ items, P (Emission.separated each items)
  | [] => h.done
  | [a] => ha a
  | a :: next :: rest => by
    rw [Emission.separated]
    exact h.apart (ha a) (by decide) (separated ha (next :: rest))

end Composed

end Emission

open Emission

namespace Sql

variable {lookup : TypeId → Except Error Model}

mutual

theorem quiet_resolve (field : String) :
    ∀ source, Quiet (Failure lookup) (Resolution.resolve lookup field source)
  | .table t =>
    .bind (.model fun _ he => .model he) fun _ =>
      .bind (.requireField (.field field)) fun _ => .pure _
  | .join _ left right _ => by
    rw [Resolution.resolve]
    exact .orElseField (quiet_resolve field left) (quiet_resolve field right)
  | .subquery ⟨query, aliasName⟩ => by
    rw [Resolution.resolve]
    exact .bind (quiet_exposed field query) fun _ => .pure _

theorem quiet_exposed (field : String) :
    ∀ query, Quiet (Failure lookup) (Resolution.exposed lookup field query)
  | ⟨source, columns, _, _, _, _, _, _, _⟩ => by
    have hsource := (quiet_resolve field source).map (·.2)
    rw [Resolution.exposed]
    split
    · exact hsource
    split
    · exact .pure _
    · exact quiet_exposedItem field hsource columns

theorem quiet_exposedItem (field : String) {inSource : Unit → Emission String}
    (hsource : Quiet (Failure lookup) (inSource ())) :
    ∀ columns, Quiet (Failure lookup) (Resolution.exposedItem lookup field inSource columns)
  | [] => .fail (.field field)
  | .column ⟨none, f, none⟩ :: rest => by
    rw [Resolution.exposedItem]
    split
    · exact hsource
    · exact quiet_exposedItem field hsource rest
  | .column ⟨some source, f, none⟩ :: rest => by
    rw [Resolution.exposedItem]
    split
    · exact (quiet_resolve field source).map (·.2)
    · exact quiet_exposedItem field hsource rest
  | .column ⟨_, _, some _⟩ :: rest => by
    rw [Resolution.exposedItem]
    exact quiet_exposedItem field hsource rest
  | .aggregate _ :: rest => by
    rw [Resolution.exposedItem]
    exact quiet_exposedItem field hsource rest
  | .raw _ :: rest => by
    rw [Resolution.exposedItem]
    exact quiet_exposedItem field hsource rest
  | .subquery _ :: rest => by
    rw [Resolution.exposedItem]
    exact quiet_exposedItem field hsource rest

end

theorem quiet_ofColumn (scope : Option TableRef) (c : Column) :
    Quiet (Failure lookup) (Resolution.ofColumn lookup scope c) := by
  unfold Resolution.ofColumn
  split
  · exact quiet_resolve _ _
  · exact quiet_resolve _ _
  · exact .fail (.field _)

variable {E : Error → Prop} {P : Emission Unit → Prop} (h : Composed lookup E P)
include h

private theorem composed_writeResolved : ∀ r, P (writeResolved r)
  | (some q, c) => h.apart (h.name q) (by decide) (h.name c)
  | (none, c) => h.name c

private theorem composed_alias (aliasName : Option String) :
    P (writeAlias aliasName) ∧ Led (writeAlias aliasName) := by
  cases aliasName with
  | none => exact ⟨h.done, .pure ()⟩
  | some a => exact ⟨h.afterText (by decide) (h.name a), .afterText _ _⟩

private theorem composed_asOperand (p : Predicate) {body : Emission Unit} (hb : P body) :
    P (asOperand p body) := by
  unfold asOperand
  split
  · exact hb
  · exact h.bracketed hb

private theorem composed_clause {α : Type} (keyword : String) (hk : Wording keyword) {each : α → Emission Unit}
    (ha : ∀ a, P (each a)) (items : List α) :
    P (emitClause keyword each items) ∧ Led (emitClause keyword each items) := by
  cases items with
  | nil => exact ⟨h.done, .pure ()⟩
  | cons a rest => exact ⟨h.afterText hk (h.separated ha (a :: rest)), .afterText _ _⟩

private theorem composed_bound (keyword : String) (hk : Wording keyword) (n : Option (Integer .u64)) :
    P (emitBound keyword n) ∧ Led (emitBound keyword n) := by
  cases n with
  | none => exact ⟨h.done, .pure ()⟩
  | some n => exact ⟨h.afterText hk (h.bound _), .afterText _ _⟩

private theorem composed_column (scope : Option TableRef) (c : Column) : P (emitColumn lookup scope c) :=
  h.afterQuiet (h.allowed (quiet_ofColumn scope c)) (composed_writeResolved h)

private theorem composed_aggregate (scope : Option TableRef) (a : Aggregate) :
    P (emitAggregate lookup scope a) :=
  h.afterText (Wording.aggregate a.func)
    (h.beforeText (composed_column h scope a.column) (by decide))

private theorem composed_table (t : Table) : P (emitTable lookup t) :=
  h.afterQuiet (.model fun _ he => h.failure (.model he)) fun m =>
    h.followed (h.name m.table) (composed_alias h t.aliasName)

private theorem composed_orderItem (scope : Option TableRef) (o : OrderItem) :
    P (emitOrderItem lookup scope o) :=
  h.beforeText (composed_column h scope o.column) (by split <;> decide)

mutual

private theorem composed_operand (scope : Option TableRef) : ∀ e, P (emitOperand lookup scope e)
  | .column c => composed_column h scope c
  | .value v => h.bound v
  | .predicate p => composed_asOperand h p (composed_predicate scope p)
  | .aggregate a => composed_aggregate h scope a
  | .raw r => h.raw r
  | .subquery s => composed_subQuery s
  | .list items => h.bracketed (composed_items scope items)
termination_by structural x => x

theorem composed_items (scope : Option TableRef) : ∀ items, P (emitItems lookup scope items)
  | [] => h.done
  | [e] => composed_operand scope e
  | e :: next :: rest => by
    rw [emitItems]
    exact h.apart (composed_operand scope e) (by decide) (composed_items scope (next :: rest))
termination_by structural x => x

theorem composed_predicate (scope : Option TableRef) : ∀ p, P (emitPredicate lookup scope p)
  | .binary left op right =>
    h.apart (composed_operand scope left) (Wording.binaryOp op) (composed_operand scope right)
  | .prefixed op operand => h.afterText (Wording.prefixOp op) (composed_operand scope operand)
  | .raw r => h.raw r
termination_by structural x => x

theorem composed_conjunction (scope : Option TableRef) :
    ∀ ps, P (emitConjunction lookup scope ps) ∧ Led (emitConjunction lookup scope ps)
  | [] => ⟨h.done, .pure ()⟩
  | [p] =>
    ⟨h.afterText (by decide) (composed_asOperand h p (composed_predicate scope p)), .afterText _ _⟩
  | p :: next :: rest => by
    rw [emitConjunction]
    have hp := composed_asOperand h p (composed_predicate scope p)
    have hrest := composed_conjunction scope (next :: rest)
    exact ⟨h.afterText (by decide) (h.apart hp (by decide) hrest.1), .afterText _ _⟩
termination_by structural x => x

private theorem composed_conditions (scope : Option TableRef) (keyword : String)
    (hk : Wording (" " ++ keyword ++ " ")) : ∀ ps,
    P (emitConditions lookup scope keyword ps) ∧ Led (emitConditions lookup scope keyword ps)
  | [] => ⟨h.done, .pure ()⟩
  | [p] => ⟨h.afterText hk (composed_predicate scope p), .afterText _ _⟩
  | p :: next :: rest => by
    rw [emitConditions]
    have hp := composed_asOperand h p (composed_predicate scope p)
    have hrest := composed_conjunction scope (next :: rest)
    exact ⟨h.afterText (hk.append_open _) (h.followed hp hrest), .afterText _ _⟩
termination_by structural x => x

theorem composed_selectable (scope : Option TableRef) : ∀ item, P (emitSelectable lookup scope item)
  | .column c => h.followed (composed_column h scope c) (composed_alias h c.aliasName)
  | .aggregate a => h.followed (composed_aggregate h scope a) (composed_alias h a.aliasName)
  | .raw r => h.raw r
  | .subquery ⟨query, aliasName⟩ =>
    h.followed (h.bracketed (composed_query query)) (composed_alias h aliasName)
termination_by structural x => x

theorem composed_selectList (scope : Option TableRef) :
    ∀ items, P (emitSelectList lookup scope items)
  | [] => h.text (by decide)
  | [item] => composed_selectable scope item
  | item :: next :: rest => by
    rw [emitSelectList]
    exact h.apart (composed_selectable scope item) (by decide)
      (composed_selectList scope (next :: rest))
termination_by structural x => x

theorem composed_source (scope : Option TableRef) : ∀ source, P (emitSource lookup scope source)
  | .table t => composed_table h t
  | .join kind left right (.on conditions) => by
    have hleft := composed_source scope left
    have hright := composed_source scope right
    have hon := composed_conditions scope "ON" (by decide) conditions
    exact h.apart hleft (Wording.joinKind kind) (h.followed hright hon)
  | .join kind left right (.using fields) => by
    have hleft := composed_source scope left
    have hright := composed_source scope right
    have hfield (field : String) : P (do
        let (_, column) ← Resolution.resolve lookup field (.join kind left right (.using fields))
        name column) :=
      h.afterQuiet (h.allowed (quiet_resolve field _)) fun r => h.name r.2
    have hclosed := h.beforeText (h.separated hfield fields) (by decide : Wording ")")
    have husing := h.apart hright (by decide : Wording " USING (") hclosed
    rw [emitSource]
    exact h.apart hleft (Wording.joinKind kind) husing
  | .subquery ⟨query, aliasName⟩ =>
    h.followed (h.bracketed (composed_query query)) (composed_alias h aliasName)
termination_by structural x => x

theorem composed_subQuery : ∀ s, P (emitSubQuery lookup s)
  | ⟨query, _⟩ => h.bracketed (composed_query query)
termination_by structural x => x

private theorem composed_query : ∀ q, P (emitQuery lookup q)
  | ⟨source, columns, distinct, conditions, groupBy, having, orderBy, limit, offset⟩ => by
    rw [emitQuery]
    split
    · exact h.quiet (.fail (h.failure .having))
    have hoffset := composed_bound h " OFFSET " (by decide) offset
    have hlimit := h.trail (composed_bound h " LIMIT " (by decide) limit) hoffset
    have horder := h.trail (composed_clause h " ORDER BY " (by decide)
      (composed_orderItem h (some source)) orderBy) hlimit
    have hhaving := h.trail (composed_conditions (some source) "HAVING" (by decide) having) horder
    have hgroup := h.trail (composed_clause h " GROUP BY " (by decide)
      (composed_column h (some source)) groupBy) hhaving
    have hwhere := h.trail (composed_conditions (some source) "WHERE" (by decide) conditions) hgroup
    have hsource := h.followed (composed_source (some source) source) hwhere
    exact h.afterText (by split <;> decide)
      (h.apart (composed_selectList (some source) columns) (by decide) hsource)
termination_by structural x => x

end

end Sql

def Dialect.given : List Dialect := [.standard, .mysql, .postgres]

theorem Dialect.eq_of_given {d : Dialect} (hd : d ∈ given) :
    d = .standard ∨ d = .mysql ∨ d = .postgres := by
  simpa only [given, List.mem_cons, List.not_mem_nil, or_false] using hd

def Command.onConflict? : Command → Option OnConflict
  | .insert i => i.onConflict
  | _ => none

theorem Command.eq_raw_of_kind {cmd : Command} (h : cmd.kind = .raw) : ∃ r, cmd = .raw r := by
  cases cmd with
  | raw r => exact ⟨r, rfl⟩
  | _ => cases h

namespace Compiler

/-- The ways in which the walk over a command fails, except for a refused item of a select list. -/
inductive Failure (c : Compiler) : Error → Prop where
  | sql {err : Error} (h : Sql.Failure c.lookup err) : Failure c err
  | foreignModel : Failure c .invalidModelType
  | missedField : Failure c .stray
  | noRow : Failure c .emptyInsertRow
  | noAssignment : Failure c .emptyUpdateAssignment
  | noEntity (detail : String) : Failure c (.invalidAssignment detail)
  | noUpsert (detail : String) : Failure c (.unsupportedOnConflict detail)

variable {c : Compiler} {E : Error → Prop} {P : Emission Unit → Prop}

section

variable {cmd : Command}

theorem build_of_outcome {u : Unit} (hk : cmd.kind ≠ .raw)
    (ho : (c.emit cmd).outcome = .ok u) :
    c.build cmd = .ok (c.dialect.spelling.statement (c.emit cmd).pieces) := by
  unfold build
  split
  · exact absurd rfl hk
  · simp only [ho]

theorem build_eq_error_iff {err : Error} :
    c.build cmd = .error err ↔ (c.emit cmd).outcome = .error err := by
  cases cmd with
  | raw r =>
    constructor
    · intro h
      cases h
    · intro h
      cases h
  | _ =>
    simp only [build]
    split
    · rename_i ho
      simp [ho]
    · rename_i err' ho
      simp [ho]

/-- A command that can be built is walked over without failure, and its pieces are the statement. -/
theorem build_eq_ok {st : Statement} (hk : cmd.kind ≠ .raw) (h : c.build cmd = .ok st) :
    (c.emit cmd).outcome = .ok () ∧ st = c.dialect.spelling.statement (c.emit cmd).pieces := by
  unfold build at h
  split at h
  · exact absurd rfl hk
  · dsimp only at h
    split at h
    · rename_i ho
      cases h
      exact ⟨ho, rfl⟩
    · cases h

end

private theorem failure_read {m : Model} {e : Entity} {field : String} {err : Error}
    (h : c.access.read m e field = .error err) : c.Failure err := by
  unfold Access.read Model.check Model.requireField at h
  split at h
  · rename_i hcheck
    split at hcheck <;> cases hcheck
    cases h; exact .foreignModel
  split at h
  · rename_i hf
    split at hf <;> cases hf
    cases h; exact .sql (.field field)
  split at h
  · cases h
  · cases h
    cases c.access with
    | byOffset => exact .missedField
    | byName => exact .sql (.field _)

private theorem quiet_requireFields {m : Model} : ∀ names : List String,
    Quiet (Sql.Failure c.lookup) (Emission.ofExcept (names.mapM m.requireField))
  | [] => .ofExcept fun _ he => by cases he
  | name :: rest => by
    refine .ofExcept fun err he => ?_
    rw [List.mapM_cons] at he
    cases hf : m.requireField name with
    | error e =>
      rw [hf] at he
      cases he
      exact (Quiet.requireField (.field name)).outcome err hf
    | ok f =>
      cases hr : rest.mapM m.requireField with
      | error e =>
        rw [hf, hr] at he
        cases he
        exact (quiet_requireFields rest).outcome err hr
      | ok fields =>
        rw [hf, hr] at he
        cases he

private theorem quiet_insertedFields (m : Model) (names : List String) :
    Quiet (Sql.Failure c.lookup) (Emission.ofExcept (insertedFields m names)) := by
  cases names with
  | nil => exact .ofExcept fun _ he => by cases he
  | cons name rest => exact quiet_requireFields (name :: rest)

section

variable (h : Composed c.lookup E P)
include h

private theorem composed_writeColumn (m : Model) (field : String) : P (Dialect.writeColumn m field) :=
  h.afterQuiet (.requireField (h.failure (.field field))) fun f => h.name f.column

private theorem composed_upsertItem {incoming : String → Emission Unit} (hi : ∀ column, P (incoming column))
    (scope : Option TableRef) (m : Model) : ∀ a,
    P (Dialect.emitUpsertItem incoming (Sql.emitOperand c.lookup scope) m a)
  | .assign field value =>
    h.apart (composed_writeColumn h m field) (by decide) (Sql.composed_operand h scope value)
  | .copy field =>
    h.afterQuiet (.requireField (h.failure (.field field))) fun f =>
      h.apart (h.name f.column) (by decide) (hi f.column)

private theorem composed_deletion (d : Deletion) : P (c.emitDeletion d) := by
  refine h.afterQuiet (.model fun _ he => h.failure (.model he)) fun m => ?_
  have hwhere := Sql.composed_conditions h (scopeOf d.entity) "WHERE" (by decide) d.conditions
  exact h.afterText (by decide) (h.followed (h.name m.table) hwhere)

variable (hE : ∀ err, c.Failure err → E err)
include hE

private theorem composed_fail {err : Error} (he : c.Failure err) :
    P (Emission.fail err) ∧ Led (Emission.fail err : Emission Unit) :=
  ⟨h.quiet (.fail (hE err he)), fun _ hp => by cases hp⟩

private theorem composed_mysql (scope : Option TableRef) (m : Model) (oc : OnConflict) :
    P (Dialect.mysql.upsert (Sql.emitOperand c.lookup scope) m oc) ∧
      Led (Dialect.mysql.upsert (Sql.emitOperand c.lookup scope) m oc) := by
  have hi (column : String) : P (Dialect.mysql.incoming column) :=
    h.afterText (by decide) (h.beforeText (h.name column) (by decide))
  obtain ⟨targets, assigns⟩ := oc
  cases assigns with
  | nil => exact composed_fail h hE (.noUpsert _)
  | cons a rest =>
    exact ⟨h.afterText (by decide) (h.separated (composed_upsertItem h hi scope m) (a :: rest)),
      .afterText _ _⟩

private theorem composed_postgres (scope : Option TableRef) (m : Model) (oc : OnConflict) :
    P (Dialect.postgres.upsert (Sql.emitOperand c.lookup scope) m oc) ∧
      Led (Dialect.postgres.upsert (Sql.emitOperand c.lookup scope) m oc) := by
  have hi (column : String) : P (Dialect.postgres.incoming column) :=
    h.afterText (by decide) (h.name column)
  have ht (targets : List String) : P (separated (Dialect.writeColumn m) targets) :=
    h.separated (composed_writeColumn h m) targets
  obtain ⟨targets, assigns⟩ := oc
  match targets, assigns with
  | [], [] => exact ⟨h.text (by decide), .text _⟩
  | [], _ :: _ => exact composed_fail h hE (.noUpsert _)
  | t :: targets, [] =>
    exact ⟨h.afterText (by decide) (h.apart (ht _) (by decide) (h.text (by decide))), .afterText _ _⟩
  | t :: targets, a :: rest =>
    have ha := h.separated (composed_upsertItem h hi scope m) (a :: rest)
    have hupdate := h.afterText (by decide : Wording " DO UPDATE SET ") ha
    have htargets := h.apart (ht (t :: targets)) (by decide : Wording ")") hupdate
    exact ⟨h.afterText (by decide) htargets, .afterText _ _⟩

private theorem composed_upsert (hd : c.dialect ∈ Dialect.given) (scope : Option TableRef) (m : Model)
    (oc : OnConflict) :
    P (c.dialect.upsert (Sql.emitOperand c.lookup scope) m oc) ∧
      Led (c.dialect.upsert (Sql.emitOperand c.lookup scope) m oc) := by
  rcases Dialect.eq_of_given hd with hd | hd | hd <;> rw [hd]
  · exact composed_fail h hE (.noUpsert _)
  · exact composed_mysql h hE scope m oc
  · exact composed_postgres h hE scope m oc

private theorem composed_bindField (m : Model) (e : Entity) (field : String) :
    P (c.bindField m e field) :=
  h.afterQuiet (.ofExcept fun err he => hE err (failure_read he)) h.bound

private theorem composed_insertion (i : Insertion)
    (hd : i.onConflict.isSome → c.dialect ∈ Dialect.given) : P (c.emitInsertion i) := by
  unfold emitInsertion
  split
  · exact (composed_fail h hE .noRow).1
  refine h.afterQuiet (.model fun _ he => h.failure (.model he)) fun m => ?_
  refine h.afterQuiet (h.allowed (quiet_insertedFields m i.fields)) fun fields => ?_
  have hcolumns := h.separated (fun f : Field => h.name f.column) fields
  have hrow (e : Entity) : P (c.emitRow m fields e) :=
    h.bracketed (h.separated (fun f : Field => composed_bindField h hE m e f.name) fields)
  have hrows := h.separated hrow i.rows
  refine h.afterText (by decide) (h.apart (h.name m.table) (by decide) ?_)
  refine h.apart hcolumns (by decide) (h.followed hrows ?_)
  split
  · rename_i oc hoc
    exact composed_upsert h hE (hd (by simp [hoc])) _ m oc
  · exact ⟨h.done, .pure ()⟩

private theorem composed_assignable (u : Updating) (m : Model) : ∀ a, P (c.emitAssignable u m a)
  | .assign field value =>
    h.apart (composed_writeColumn h m field) (by decide) (Sql.composed_operand h _ value)
  | .copy field => by
    rw [emitAssignable]
    split
    · exact (composed_fail h hE (.noEntity _)).1
    · exact h.apart (composed_writeColumn h m field) (by decide) (composed_bindField h hE m _ field)

private theorem composed_updating (u : Updating) : P (c.emitUpdating u) := by
  unfold emitUpdating
  split
  · exact (composed_fail h hE .noAssignment).1
  refine h.afterQuiet (.model fun _ he => h.failure (.model he)) fun m => ?_
  have hset := h.separated (composed_assignable h hE u m) u.assigns
  have hwhere := Sql.composed_conditions h (scopeOf u.entity) "WHERE" (by decide) u.conditions
  have hassigned := h.apart (h.name m.table) (by decide : Wording " SET ") (h.followed hset hwhere)
  exact h.afterText (by decide) hassigned

/-- What composition keeps holds of the walk over every command, unless an item of its select list is
refused. Only an upsert depends on the dialect. -/
theorem composed_emit (cmd : Command) (hd : cmd.onConflict?.isSome → c.dialect ∈ Dialect.given)
    (hr : ∀ s message, cmd = .select s → s.refused = some message → E (.unsupportedExpression message)) :
    P (c.emit cmd) := by
  cases cmd with
  | select s =>
    change P (c.emitSelection s)
    unfold emitSelection
    split
    · rename_i message hm
      exact h.quiet (.fail (hr s message rfl hm))
    · exact Sql.composed_query h s.query
  | insert i => exact composed_insertion h hE i hd
  | update u => exact composed_updating h hE u
  | delete d => exact composed_deletion h d
  | raw r => exact h.done

end

end Compiler

end EntitySql
