import EntitySql.Proofs.Sql.Candidate
import EntitySql.Proofs.Sql.Composition

namespace EntitySql

/-- What an expression or a source asks of the models. -/
inductive Demand where
  | model (t : TypeId)
  | column (field : String) (source : TableRef)
  | groups (q : Query)

/-- The demand of a column reference where a source is in scope. -/
def Column.demand (scope : TableRef) (c : Column) : Demand := .column c.field (c.source.getD scope)

mutual

def Expr.demands (scope : TableRef) : Expr → List Demand
  | .column c => [c.demand scope]
  | .value _ => []
  | .predicate p => p.demands scope
  | .aggregate a => [a.column.demand scope]
  | .raw _ => []
  | .subquery ⟨query, _⟩ => query.demands
  | .list items => Expr.demandsAll scope items
termination_by structural x => x

def Expr.demandsAll (scope : TableRef) : List Expr → List Demand
  | [] => []
  | e :: rest => e.demands scope ++ Expr.demandsAll scope rest
termination_by structural x => x

def Predicate.demands (scope : TableRef) : Predicate → List Demand
  | .binary left _ right => left.demands scope ++ right.demands scope
  | .prefixed _ operand => operand.demands scope
  | .raw _ => []
termination_by structural x => x

def Predicate.demandsAll (scope : TableRef) : List Predicate → List Demand
  | [] => []
  | p :: rest => p.demands scope ++ Predicate.demandsAll scope rest
termination_by structural x => x

def Selectable.demands (scope : TableRef) : Selectable → List Demand
  | .column c => [c.demand scope]
  | .aggregate a => [a.column.demand scope]
  | .raw _ => []
  | .subquery ⟨query, _⟩ => query.demands
termination_by structural x => x

def Selectable.demandsAll (scope : TableRef) : List Selectable → List Demand
  | [] => []
  | item :: rest => item.demands scope ++ Selectable.demandsAll scope rest
termination_by structural x => x

/-- The fields that both sides of a join share are found in the join itself. -/
def TableRef.demands (scope : TableRef) : TableRef → List Demand
  | .table t => [.model t.entity]
  | .join _ left right (.on conditions) =>
    TableRef.demands scope left ++ TableRef.demands scope right ++ Predicate.demandsAll scope conditions
  | .join kind left right (.using fields) =>
    TableRef.demands scope left ++ TableRef.demands scope right ++
      fields.map fun field => .column field (.join kind left right (.using fields))
  | .subquery ⟨query, _⟩ => query.demands
termination_by structural x => x

/-- What stands in a query has the source of the query in scope. -/
def Query.demands : Query → List Demand
  | ⟨source, columns, distinct, conditions, groupBy, having, orderBy, limit, offset⟩ =>
    .groups ⟨source, columns, distinct, conditions, groupBy, having, orderBy, limit, offset⟩ ::
      (Selectable.demandsAll source columns ++ TableRef.demands source source ++
        Predicate.demandsAll source conditions ++ groupBy.map (·.demand source) ++
        Predicate.demandsAll source having ++ orderBy.map (·.column.demand source))
termination_by structural x => x

end

def ending : Option Error → Except Error Unit
  | none => .ok ()
  | some err => .error err

theorem ending_eq_error_iff {failure : Option Error} {err : Error} :
    ending failure = .error err ↔ failure = some err := by
  cases failure <;> simp [ending]

namespace Demand

variable (lookup : TypeId → Except Error Model)

/-- The types whose models are needed to see whether a demand is met. -/
def asked : Demand → List TypeId
  | model t => [t]
  | column field source => Candidate.asked lookup field (source.candidates field)
  | groups _ => []

def failure? : Demand → Option Error
  | model t => Sql.firstError lookup [t]
  | column field source =>
    match Sql.firstError lookup (Candidate.asked lookup field (source.candidates field)) with
    | some err => some err
    | none => if (source.candidates field).any (·.knows lookup field) then none else some (.invalidField field)
  | groups q => if !q.having.isEmpty && q.groupBy.isEmpty then some .havingWithoutGroupBy else none

def check : Demand → Emission Unit
  | model t => (Emission.model lookup t).silent
  | column field source => Candidate.search lookup field (source.candidates field)
  | groups q => ⟨[], [], ending ((groups q).failure? lookup)⟩

variable {lookup}

theorem outcome_check (d : Demand) : (d.check lookup).outcome = ending (d.failure? lookup) := by
  cases d with
  | model t =>
    cases hm : lookup t <;> simp [check, failure?, Sql.firstError, Emission.silent, Emission.model, hm,
      Except.map, ending]
  | column field source =>
    rw [check, Sql.outcome_search, failure?]
    cases Sql.firstError lookup (Candidate.asked lookup field (source.candidates field)) with
    | some err => rfl
    | none => cases (source.candidates field).any (·.knows lookup field) <;> rfl
  | groups q => rfl

theorem consulted_check {d : Demand} (h : (d.check lookup).outcome = .ok ()) :
    (d.check lookup).consulted = d.asked lookup := by
  cases d with
  | column field source => exact Sql.consulted_search field _ h
  | model t => rfl
  | groups q => rfl

private theorem check_groups (q : Query) :
    (groups q).check lookup =
      if !q.having.isEmpty && q.groupBy.isEmpty then Emission.fail .havingWithoutGroupBy else pure () := by
  rw [check, failure?]
  split <;> rfl

end Demand

namespace Emission

variable {α β δ : Type} {check : δ → Emission Unit} {ds ds' : List δ}

/-- The first demand that is not met decides. -/
theorem outcome_forM {failure? : δ → Option Error} (h : ∀ d, (check d).outcome = ending (failure? d))
    (ds : List δ) : (forM ds check).outcome = ending (ds.findSome? failure?) := by
  induction ds with
  | nil => rfl
  | cons d rest ih =>
    have hd := h d
    rw [List.forM_cons, bind_def, List.findSome?_cons]
    cases hf : failure? d with
    | some err =>
      rw [hf] at hd
      rw [andThen_error hd]
      rfl
    | none =>
      rw [hf] at hd
      rw [andThen_ok hd]
      exact ih

/-- Demands that are all met have asked for the types that each asks for. -/
theorem consulted_forM {asked : δ → List TypeId}
    (h : ∀ d, (check d).outcome = .ok () → (check d).consulted = asked d) {ds : List δ}
    (hds : (forM ds check).outcome = .ok ()) : (forM ds check).consulted = ds.flatMap asked := by
  induction ds with
  | nil => rfl
  | cons d rest ih =>
    rw [List.forM_cons, bind_def] at hds ⊢
    cases hd : (check d).outcome with
    | error err =>
      rw [andThen_error hd] at hds
      cases hds
    | ok u =>
      rw [andThen_ok hd] at hds ⊢
      rw [List.flatMap_cons, ← h d hd, ← ih hds]

/-- A walk that, but for what it writes, is meeting demands in order, each by the walk for it. -/
def Checks (check : δ → Emission Unit) (e : Emission α) (ds : List δ) : Prop := e.silent = forM ds check

namespace Checks

theorem pure (a : α) : Checks check (Pure.pure a : Emission α) [] := rfl

theorem text (s : String) : Checks check (Emission.text s) [] := rfl

theorem name (s : String) : Checks check (Emission.name s) [] := rfl

theorem bound (v : Value) : Checks check (Emission.bound v) [] := rfl

private theorem raw (r : RawSql) : Checks check (Emission.raw r) [] := rfl

theorem outcome {e : Emission Unit} (h : Checks check e ds) : e.outcome = (forM ds check).outcome := by
  rw [← h]
  cases he : e.outcome <;> simp [silent, he, Except.map]

/-- The walk and the demands ask for the same types. -/
theorem consulted {e : Emission α} (h : Checks check e ds) : e.consulted = (forM ds check).consulted :=
  congrArg Emission.consulted h

theorem one {d : δ} {e : Emission α} (h : e.silent = check d) : Checks check e [d] := by
  rw [Checks, List.forM_cons, h]
  exact bind_pure_unit.symm

/-- A demand that is not met stops the walk. -/
theorem refused {d : δ} {err : Error} (h : check d = Emission.fail err) (ds : List δ) :
    Checks check (Emission.fail err : Emission α) (d :: ds) := by
  rw [Checks, List.forM_cons, h]
  rfl

/-- A demand that is met without a look at any model. -/
theorem passed {d : δ} (h : check d = Pure.pure ()) {e : Emission α} (he : Checks check e ds) :
    Checks check e (d :: ds) := by
  rw [Checks, List.forM_cons, h, pure_bind]
  exact he

theorem bind {e : Emission α} {f : α → Emission β} (he : Checks check e ds)
    (hf : ∀ a, e.outcome = .ok a → Checks check (f a) ds') : Checks check (e >>= f) (ds ++ ds') := by
  rw [Checks, List.forM_append, ← he, silent_bind, bind_def]
  cases ho : e.outcome with
  | error err => simp [silent, ho, andThen, Except.map]
  | ok a =>
    rw [← hf a ho]
    simp [silent, ho, andThen, Except.map]

theorem next {e : Emission α} {next : Emission β} (he : Checks check e ds) (hn : Checks check next ds') :
    Checks check (do let _ ← e; next) (ds ++ ds') :=
  he.bind fun _ _ => hn

/-- A text with nothing to meet in front of a walk. -/
theorem afterText {s : String} {next : Emission β} (hn : Checks check next ds) :
    Checks check (do Emission.text s; next) ds :=
  (text s).next hn

theorem afterName {s : String} {next : Emission β} (hn : Checks check next ds) :
    Checks check (do Emission.name s; next) ds :=
  (name s).next hn

theorem before {e : Emission α} {f : α → Emission β} (he : Checks check e ds)
    (hf : ∀ a, Checks check (f a) []) : Checks check (e >>= f) ds := by
  simpa using he.bind fun a _ => hf a

theorem bracketed {e : Emission Unit} (he : Checks check e ds) : Checks check e.bracketed ds :=
  afterText (he.before fun _ => text ")")

theorem separated {each : α → Emission Unit} {demands : α → List δ} :
    ∀ {items : List α}, (∀ a ∈ items, Checks check (each a) (demands a)) →
      Checks check (Emission.separated each items) (items.flatMap demands)
  | [], _ => .pure ()
  | [a], h => by
    rw [List.flatMap_cons, List.flatMap_nil, List.append_nil]
    exact h a List.mem_cons_self
  | a :: b :: rest, h =>
    (h a List.mem_cons_self).next (afterText (separated fun x hx => h x (List.mem_cons_of_mem a hx)))

/-- Nothing to meet in any of many walks. -/
theorem list {each : α → Emission Unit} {items : List α} (h : ∀ a ∈ items, Checks check (each a) []) :
    Checks check (Emission.separated each items) [] := by
  have hall := separated h
  rwa [List.flatMap_eq_nil_iff.mpr fun a _ => rfl] at hall

end Checks

end Emission

namespace Sql

open Emission (Checks)

variable {lookup : TypeId → Except Error Model}

private theorem checks_alias (aliasName : Option String) : Checks (Demand.check lookup) (writeAlias aliasName) [] := by
  cases aliasName with
  | none => exact .pure ()
  | some a => exact .afterText (.name a)

private theorem checks_table (t : Table) : Checks (Demand.check lookup) (emitTable lookup t) [.model t.entity] :=
  have hmodel : Checks (Demand.check lookup) (Emission.model lookup t.entity) [.model t.entity] := .one rfl
  hmodel.before fun _ => .afterName (checks_alias t.aliasName)

private theorem checks_asOperand (p : Predicate) {body : Emission Unit} {ds : List Demand}
    (hb : Checks (Demand.check lookup) body ds) : Checks (Demand.check lookup) (asOperand p body) ds := by
  unfold asOperand
  split
  · exact hb
  · exact hb.bracketed

private theorem checks_clause {α : Type} (keyword : String) {each : α → Emission Unit} {demand : α → Demand}
    (h : ∀ a, Checks (Demand.check lookup) (each a) [demand a]) (items : List α) :
    Checks (Demand.check lookup) (emitClause keyword each items) (items.map demand) := by
  rw [List.map_eq_flatMap]
  cases items with
  | nil => exact .pure ()
  | cons a rest => exact .afterText (.separated fun a _ => h a)

private theorem checks_bound (keyword : String) (n : Option (Integer .u64)) :
    Checks (Demand.check lookup) (emitBound keyword n) [] := by
  cases n with
  | none => exact .pure ()
  | some n => exact .afterText (.bound _)

section

variable (hl : Faithful lookup)

include hl

private theorem checks_resolve (field : String) (source : TableRef) :
    Checks (Demand.check lookup) (Resolution.resolve lookup field source) [.column field source] :=
  .one (silent_resolve hl field source)

private theorem checks_column (scope : TableRef) (c : Column) :
    Checks (Demand.check lookup) (emitColumn lookup (some scope) c) [c.demand scope] := by
  have hcolumn : Checks (Demand.check lookup) (Resolution.ofColumn lookup (some scope) c) [c.demand scope] := by
    obtain ⟨source, field, aliasName⟩ := c
    cases source with
    | some source => exact checks_resolve hl field source
    | none => exact checks_resolve hl field scope
  refine hcolumn.before fun r => ?_
  obtain ⟨qualifier, column⟩ := r
  cases qualifier with
  | none => exact .name _
  | some q => exact .afterName (.afterText (.name _))

private theorem checks_aggregate (scope : TableRef) (a : Aggregate) :
    Checks (Demand.check lookup) (emitAggregate lookup (some scope) a) [a.column.demand scope] :=
  .afterText ((checks_column hl scope a.column).before fun _ => .text _)

private theorem checks_orderItem (scope : TableRef) (o : OrderItem) :
    Checks (Demand.check lookup) (emitOrderItem lookup (some scope) o) [o.column.demand scope] :=
  (checks_column hl scope o.column).before fun _ => .text _

end

mutual

theorem checks_operand (hl : Faithful lookup) (scope : TableRef) : ∀ e,
    Checks (Demand.check lookup) (emitOperand lookup (some scope) e) (e.demands scope)
  | .column c => checks_column hl scope c
  | .value v => .bound v
  | .predicate p => checks_asOperand p (checks_predicate hl scope p)
  | .aggregate a => checks_aggregate hl scope a
  | .raw r => .raw r
  | .subquery ⟨query, _⟩ => (checks_query hl query).bracketed
  | .list items => (checks_items hl scope items).bracketed
termination_by structural x => x

theorem checks_items (hl : Faithful lookup) (scope : TableRef) : ∀ items,
    Checks (Demand.check lookup) (emitItems lookup (some scope) items) (Expr.demandsAll scope items)
  | [] => .pure ()
  | [e] => by
    rw [Expr.demandsAll, Expr.demandsAll, List.append_nil]
    exact checks_operand hl scope e
  | e :: next :: rest => (checks_operand hl scope e).next (.afterText (checks_items hl scope (next :: rest)))
termination_by structural x => x

theorem checks_predicate (hl : Faithful lookup) (scope : TableRef) : ∀ p,
    Checks (Demand.check lookup) (emitPredicate lookup (some scope) p) (p.demands scope)
  | .binary left _ right => (checks_operand hl scope left).next (.afterText (checks_operand hl scope right))
  | .prefixed _ operand => .afterText (checks_operand hl scope operand)
  | .raw r => .raw r
termination_by structural x => x

theorem checks_conjunction (hl : Faithful lookup) (scope : TableRef) : ∀ ps,
    Checks (Demand.check lookup) (emitConjunction lookup (some scope) ps) (Predicate.demandsAll scope ps)
  | [] => .pure ()
  | [p] => by
    rw [Predicate.demandsAll, Predicate.demandsAll, List.append_nil]
    exact .afterText (checks_asOperand p (checks_predicate hl scope p))
  | p :: next :: rest =>
    .afterText ((checks_asOperand p (checks_predicate hl scope p)).next
      (.afterText (checks_conjunction hl scope (next :: rest))))
termination_by structural x => x

theorem checks_conditions (hl : Faithful lookup) (scope : TableRef) (keyword : String) : ∀ ps,
    Checks (Demand.check lookup) (emitConditions lookup (some scope) keyword ps) (Predicate.demandsAll scope ps)
  | [] => .pure ()
  | [p] => by
    rw [Predicate.demandsAll, Predicate.demandsAll, List.append_nil]
    exact .afterText (checks_predicate hl scope p)
  | p :: next :: rest =>
    .afterText ((checks_asOperand p (checks_predicate hl scope p)).next
      (checks_conjunction hl scope (next :: rest)))
termination_by structural x => x

theorem checks_selectable (hl : Faithful lookup) (scope : TableRef) : ∀ item,
    Checks (Demand.check lookup) (emitSelectable lookup (some scope) item) (item.demands scope)
  | .column c => (checks_column hl scope c).before fun _ => checks_alias _
  | .aggregate a => (checks_aggregate hl scope a).before fun _ => checks_alias _
  | .raw r => .raw r
  | .subquery ⟨query, aliasName⟩ => (checks_query hl query).bracketed.before fun _ => checks_alias aliasName
termination_by structural x => x

theorem checks_selectList (hl : Faithful lookup) (scope : TableRef) : ∀ items,
    Checks (Demand.check lookup) (emitSelectList lookup (some scope) items) (Selectable.demandsAll scope items)
  | [] => .text "*"
  | [item] => by
    rw [Selectable.demandsAll, Selectable.demandsAll, List.append_nil]
    exact checks_selectable hl scope item
  | item :: next :: rest =>
    (checks_selectable hl scope item).next (.afterText (checks_selectList hl scope (next :: rest)))
termination_by structural x => x

theorem checks_source (hl : Faithful lookup) (scope : TableRef) : ∀ source,
    Checks (Demand.check lookup) (emitSource lookup (some scope) source) (TableRef.demands scope source)
  | .table t => checks_table t
  | .join kind left right (.on conditions) => by
    rw [TableRef.demands, List.append_assoc]
    exact (checks_source hl scope left).next (.afterText ((checks_source hl scope right).next
      (checks_conditions hl scope "ON" conditions)))
  | .join kind left right (.using fields) => by
    rw [TableRef.demands, List.append_assoc, List.map_eq_flatMap]
    have hfield (field : String) : Checks (Demand.check lookup)
        (do
          let (_, column) ← Resolution.resolve lookup field (.join kind left right (.using fields))
          Emission.name column)
        [.column field (.join kind left right (.using fields))] :=
      (checks_resolve hl field _).before fun r => .name r.2
    exact (checks_source hl scope left).next (.afterText ((checks_source hl scope right).next
      (.afterText ((Checks.separated fun field _ => hfield field).before fun _ => .text ")"))))
  | .subquery ⟨query, aliasName⟩ => (checks_query hl query).bracketed.before fun _ => checks_alias aliasName
termination_by structural x => x

theorem checks_query (hl : Faithful lookup) : ∀ q, Checks (Demand.check lookup) (emitQuery lookup q) q.demands
  | ⟨source, columns, distinct, conditions, groupBy, having, orderBy, limit, offset⟩ => by
    rw [emitQuery, Query.demands]
    cases hgroups : !having.isEmpty && groupBy.isEmpty with
    | true => exact .refused ((Demand.check_groups _).trans (if_pos hgroups)) _
    | false =>
      refine .passed ((Demand.check_groups _).trans (if_neg (Bool.eq_false_iff.mp hgroups))) ?_
      have hbody := (checks_selectList hl source columns).next (.afterText (s := " FROM ")
        ((checks_source hl source source).next ((checks_conditions hl source "WHERE" conditions).next
          ((checks_clause " GROUP BY " (checks_column hl source) groupBy).next
            ((checks_conditions hl source "HAVING" having).next
              ((checks_clause " ORDER BY " (checks_orderItem hl source) orderBy).before fun _ =>
                (checks_bound " LIMIT " limit).next (checks_bound " OFFSET " offset)))))))
      simp only [List.append_assoc]
      exact .afterText hbody
termination_by structural x => x

end

end Sql

end EntitySql
