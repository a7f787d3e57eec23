import EntitySql.Proofs.Sql.Composition

namespace EntitySql

mutual

def Expr.arguments : Expr → List Value
  | .column _ => []
  | .value v => [v]
  | .predicate p => p.arguments
  | .aggregate _ => []
  | .raw r => r.args
  | .subquery s => s.arguments
  | .list items => Expr.argumentsOfAll items
termination_by structural x => x

def Expr.argumentsOfAll : List Expr → List Value
  | [] => []
  | e :: rest => e.arguments ++ Expr.argumentsOfAll rest
termination_by structural x => x

/-- The arguments of a predicate: those of the left operand, then those of the right one. -/
def Predicate.arguments : Predicate → List Value
  | .binary left _ right => left.arguments ++ right.arguments
  | .prefixed _ operand => operand.arguments
  | .raw r => r.args
termination_by structural x => x

def Predicate.argumentsOfAll : List Predicate → List Value
  | [] => []
  | p :: rest => p.arguments ++ Predicate.argumentsOfAll rest
termination_by structural x => x

def Selectable.arguments : Selectable → List Value
  | .column _ => []
  | .aggregate _ => []
  | .raw r => r.args
  | .subquery s => s.arguments
termination_by structural x => x

def Selectable.argumentsOfAll : List Selectable → List Value
  | [] => []
  | item :: rest => item.arguments ++ Selectable.argumentsOfAll rest
termination_by structural x => x

/-- The arguments of a source: both sides of a join, then its condition. -/
def TableRef.arguments : TableRef → List Value
  | .table _ => []
  | .join _ left right condition => left.arguments ++ (right.arguments ++ condition.arguments)
  | .subquery s => s.arguments
termination_by structural x => x

def JoinCondition.arguments : JoinCondition → List Value
  | .on conditions => Predicate.argumentsOfAll conditions
  | .using _ => []
termination_by structural x => x

def SubQuery.arguments : SubQuery → List Value
  | ⟨query, _⟩ => query.arguments
termination_by structural x => x

def Query.arguments : Query → List Value
  | ⟨source, columns, _, conditions, _, having, _, limit, offset⟩ =>
    Selectable.argumentsOfAll columns ++ (source.arguments ++ (Predicate.argumentsOfAll conditions ++
      (Predicate.argumentsOfAll having ++
        (limit.toList.map Value.uint ++ offset.toList.map Value.uint))))
termination_by structural x => x

end

/-- The arguments of an item of a SET list that stand in it; a field has none of its own. -/
def Assignable.arguments : Assignable → List Value
  | assign _ value => value.arguments
  | copy _ => []

def OnConflict.arguments (oc : OnConflict) : List Value := oc.assigns.flatMap Assignable.arguments

namespace Emission

variable {α β : Type}

/-- A walk that, if it succeeds, carries the arguments that `r` gives. -/
def Carries (r : Except Error (List Value)) (e : Emission α) : Prop :=
  ∀ a, e.outcome = .ok a → r = .ok (argsOf e.pieces)

namespace Carries

variable {r : Except Error (List Value)} {vs ws : List Value}

private theorem pure (a : α) : Carries (.ok []) (Pure.pure a : Emission α) := fun _ _ => rfl

private theorem text (s : String) : Carries (.ok []) (Emission.text s) := fun _ _ => rfl

private theorem name (s : String) : Carries (.ok []) (Emission.name s) := fun _ _ => rfl

private theorem bound (v : Value) : Carries (.ok [v]) (Emission.bound v) := fun _ _ => rfl

private theorem raw (w : RawSql) : Carries (.ok w.args) (Emission.raw w) := fun _ _ => by
  simp [Emission.raw, write, argsOf, Piece.args]

private theorem fail (err : Error) : Carries r (Emission.fail err : Emission α) := fun _ h => by cases h

/-- What stands before a walk and carries nothing does not change what is carried. -/
theorem after {e : Emission α} {f : α → Emission β} (he : Carries (.ok []) e)
    (hf : ∀ a, e.outcome = .ok a → Carries r (f a)) : Carries r (e >>= f) := by
  intro b hb
  rw [bind_def] at hb ⊢
  cases ho : e.outcome with
  | error err => rw [andThen_error ho] at hb; cases hb
  | ok a =>
    rw [andThen_ok ho] at hb ⊢
    have hnone : argsOf e.pieces = [] := (Except.ok.inj (he a ho)).symm
    rw [hf a ho b hb, argsOf_append, hnone, List.nil_append]

/-- The arguments of one walk and then of another. -/
theorem bind {e next : Emission Unit} {q : Except Error (List Value)} (he : Carries r e)
    (hn : Carries q next) : Carries (do return (← r) ++ (← q)) (e >>= fun _ => next) := by
  intro b hb
  rw [bind_def] at hb ⊢
  cases ho : e.outcome with
  | error err => rw [andThen_error ho] at hb; cases hb
  | ok a =>
    rw [andThen_ok ho] at hb ⊢
    rw [he a ho, hn b hb, argsOf_append]
    rfl

private theorem append {e next : Emission Unit} (he : Carries (.ok vs) e) (hn : Carries (.ok ws) next) :
    Carries (.ok (vs ++ ws)) (e >>= fun _ => next) := he.bind hn

private theorem afterText {s : String} {next : Emission β} (hn : Carries r next) :
    Carries r (Emission.text s >>= fun _ => next) := (text s).after fun _ _ => hn

private theorem afterName {s : String} {next : Emission β} (hn : Carries r next) :
    Carries r (Emission.name s >>= fun _ => next) := (name s).after fun _ _ => hn

private theorem before {e next : Emission Unit} (he : Carries r e) (hn : Carries (.ok []) next) :
    Carries r (e >>= fun _ => next) := by
  have h := he.bind hn
  have hr : (do return (← r) ++ (← .ok []) : Except Error (List Value)) = r := by
    cases r with
    | error err => rfl
    | ok vs => exact congrArg Except.ok (List.append_nil vs)
  rwa [hr] at h

private theorem quiet {E : Error → Prop} {e : Emission α} (he : Quiet E e) : Carries (.ok []) e :=
  fun _ _ => by rw [he.pieces]; rfl

private theorem bracketed {e : Emission Unit} (he : Carries r e) : Carries r e.bracketed :=
  afterText (he.before (text ")"))

private theorem flatten_mapM_cons (g : α → Except Error (List Value)) (a : α) (rest : List α) :
    List.flatten <$> (a :: rest).mapM g =
      (do return (← g a) ++ (← List.flatten <$> rest.mapM g)) := by
  rw [List.mapM_cons]
  cases g a with
  | error err => rfl
  | ok vs =>
    cases rest.mapM g with
    | error err => rfl
    | ok groups => rfl

private theorem separated {each : α → Emission Unit} {g : α → Except Error (List Value)}
    (hg : ∀ a, Carries (g a) (each a)) : ∀ items,
    Carries (List.flatten <$> items.mapM g) (Emission.separated each items)
  | [] => pure ()
  | [a] => by
    intro u hu
    rw [Emission.separated] at hu ⊢
    simp [hg a u hu]
  | a :: next :: rest => by
    rw [flatten_mapM_cons, Emission.separated]
    exact (hg a).bind (afterText (separated hg (next :: rest)))

/-- Walks in a row that cannot fail to have their arguments. -/
theorem separatedAll {each : α → Emission Unit} {g : α → List Value}
    (hg : ∀ a, Carries (.ok (g a)) (each a)) (items : List α) :
    Carries (.ok (items.flatMap g)) (Emission.separated each items) := by
  have h := separated hg items
  have hall : items.mapM (fun a => (.ok (g a) : Except Error (List Value))) = .ok (items.map g) := by
    induction items with
    | nil => rfl
    | cons a rest ih => rw [List.mapM_cons, ih (separated hg rest)]; rfl
  rw [hall] at h
  exact h

/-- Walks in a row that have no arguments. -/
theorem separatedNone {each : α → Emission Unit} (hg : ∀ a, Carries (.ok []) (each a))
    (items : List α) : Carries (.ok []) (Emission.separated each items) := by
  have h := separatedAll hg items
  rwa [List.flatMap_eq_nil_iff.mpr fun _ _ => rfl] at h

end Carries

end Emission

open Emission

namespace Sql

variable {lookup : TypeId → Except Error Model}

private theorem carries_column (scope : Option TableRef) (c : Column) :
    Carries (.ok []) (emitColumn lookup scope c) :=
  (Carries.quiet (quiet_ofColumn scope c)).after fun r _ => by
    obtain ⟨qualifier, column⟩ := r
    cases qualifier with
    | none => exact .name column
    | some q => exact .afterName (.afterText (.name column))

private theorem carries_aggregate (scope : Option TableRef) (a : Aggregate) :
    Carries (.ok []) (emitAggregate lookup scope a) :=
  .afterText ((carries_column scope a.column).before (.text ")"))

private theorem carries_alias (aliasName : Option String) : Carries (.ok []) (writeAlias aliasName) := by
  cases aliasName with
  | none => exact .pure ()
  | some a => exact .afterText (.name a)

private theorem carries_table (t : Table) : Carries (.ok []) (emitTable lookup t) := by
  have hm : Carries (.ok []) (Emission.model lookup t.entity) := fun _ _ => rfl
  exact hm.after fun _ _ => .afterName (carries_alias t.aliasName)

private theorem carries_orderItem (scope : Option TableRef) (o : OrderItem) :
    Carries (.ok []) (emitOrderItem lookup scope o) :=
  (carries_column scope o.column).before (.text _)

private theorem carries_clause {α : Type} (keyword : String) {each : α → Emission Unit}
    (ha : ∀ a, Carries (.ok []) (each a)) (items : List α) :
    Carries (.ok []) (emitClause keyword each items) := by
  cases items with
  | nil => exact .pure ()
  | cons a rest => exact .afterText (.separatedNone ha (a :: rest))

private theorem carries_bound (keyword : String) (n : Option (Integer .u64)) :
    Carries (.ok (n.toList.map Value.uint)) (emitBound keyword n) := by
  cases n with
  | none => exact .pure ()
  | some n => exact .afterText (.bound _)

private theorem carries_asOperand (p : Predicate) {body : Emission Unit} {vs : List Value}
    (hb : Carries (.ok vs) body) : Carries (.ok vs) (asOperand p body) := by
  unfold asOperand
  split
  · exact hb
  · exact hb.bracketed

mutual

private theorem carries_operand (scope : Option TableRef) :
    ∀ e, Carries (.ok e.arguments) (emitOperand lookup scope e)
  | .column c => carries_column scope c
  | .value v => .bound v
  | .predicate p => carries_asOperand p (carries_predicate scope p)
  | .aggregate a => carries_aggregate scope a
  | .raw r => .raw r
  | .subquery s => carries_subQuery s
  | .list items => .bracketed (carries_items scope items)
termination_by structural x => x

theorem carries_items (scope : Option TableRef) :
    ∀ items, Carries (.ok (Expr.argumentsOfAll items)) (emitItems lookup scope items)
  | [] => .pure ()
  | [e] => by
    rw [Expr.argumentsOfAll, Expr.argumentsOfAll, List.append_nil]
    exact carries_operand scope e
  | e :: next :: rest => by
    rw [emitItems, Expr.argumentsOfAll]
    exact (carries_operand scope e).append (.afterText (carries_items scope (next :: rest)))
termination_by structural x => x

theorem carries_predicate (scope : Option TableRef) :
    ∀ p, Carries (.ok p.arguments) (emitPredicate lookup scope p)
  | .binary left _ right => (carries_operand scope left).append (.afterText (carries_operand scope right))
  | .prefixed _ operand => .afterText (carries_operand scope operand)
  | .raw r => .raw r
termination_by structural x => x

theorem carries_conjunction (scope : Option TableRef) :
    ∀ ps, Carries (.ok (Predicate.argumentsOfAll ps)) (emitConjunction lookup scope ps)
  | [] => .pure ()
  | [p] => by
    rw [Predicate.argumentsOfAll, Predicate.argumentsOfAll, List.append_nil]
    exact .afterText (carries_asOperand p (carries_predicate scope p))
  | p :: next :: rest => by
    rw [emitConjunction, Predicate.argumentsOfAll]
    have hp := carries_asOperand p (carries_predicate scope p)
    exact .afterText (hp.append (.afterText (carries_conjunction scope (next :: rest))))
termination_by structural x => x

private theorem carries_conditions (scope : Option TableRef) (keyword : String) :
    ∀ ps, Carries (.ok (Predicate.argumentsOfAll ps)) (emitConditions lookup scope keyword ps)
  | [] => .pure ()
  | [p] => by
    rw [Predicate.argumentsOfAll, Predicate.argumentsOfAll, List.append_nil]
    exact .afterText (carries_predicate scope p)
  | p :: next :: rest => by
    rw [emitConditions, Predicate.argumentsOfAll]
    have hp := carries_asOperand p (carries_predicate scope p)
    exact .afterText (hp.append (carries_conjunction scope (next :: rest)))
termination_by structural x => x

theorem carries_selectable (scope : Option TableRef) :
    ∀ item, Carries (.ok item.arguments) (emitSelectable lookup scope item)
  | .column c => (carries_column scope c).before (carries_alias c.aliasName)
  | .aggregate a => (carries_aggregate scope a).before (carries_alias a.aliasName)
  | .raw r => .raw r
  | .subquery ⟨query, aliasName⟩ => (carries_query query).bracketed.before (carries_alias aliasName)
termination_by structural x => x

theorem carries_selectList (scope : Option TableRef) :
    ∀ items, Carries (.ok (Selectable.argumentsOfAll items)) (emitSelectList lookup scope items)
  | [] => .text "*"
  | [item] => by
    rw [Selectable.argumentsOfAll, Selectable.argumentsOfAll, List.append_nil]
    exact carries_selectable scope item
  | item :: next :: rest => by
    rw [emitSelectList, Selectable.argumentsOfAll]
    exact (carries_selectable scope item).append (.afterText (carries_selectList scope (next :: rest)))
termination_by structural x => x

theorem carries_source (scope : Option TableRef) :
    ∀ source, Carries (.ok source.arguments) (emitSource lookup scope source)
  | .table t => carries_table t
  | .join _ left right (.on conditions) => by
    have hleft := carries_source scope left
    have hright := carries_source scope right
    have hon := carries_conditions scope "ON" conditions
    exact hleft.append (.afterText (hright.append hon))
  | .join kind left right (.using fields) => by
    have hfield (field : String) : Carries (.ok []) (do
        let r ← Resolution.resolve lookup field (.join kind left right (.using fields))
        Emission.name r.2) :=
      (Carries.quiet (quiet_resolve field _)).after fun r _ => .name r.2
    have hleft := carries_source scope left
    have hright := carries_source scope right
    have hfields := Carries.separatedNone hfield fields
    rw [emitSource]
    exact hleft.append (.afterText (hright.append (.afterText (hfields.before (.text ")")))))
  | .subquery ⟨query, aliasName⟩ => (carries_query query).bracketed.before (carries_alias aliasName)
termination_by structural x => x

theorem carries_subQuery : ∀ s, Carries (.ok s.arguments) (emitSubQuery lookup s)
  | ⟨query, _⟩ => (carries_query query).bracketed
termination_by structural x => x

private theorem carries_query : ∀ q, Carries (.ok q.arguments) (emitQuery lookup q)
  | ⟨source, columns, distinct, conditions, groupBy, having, orderBy, limit, offset⟩ => by
    rw [emitQuery]
    split
    · exact .fail _
    have hbounds := (carries_bound " LIMIT " limit).append (carries_bound " OFFSET " offset)
    have horder : Carries (.ok []) (emitClause " ORDER BY " (emitOrderItem lookup (some source)) orderBy) :=
      carries_clause " ORDER BY " (carries_orderItem (some source)) orderBy
    have hgroup : Carries (.ok []) (emitClause " GROUP BY " (emitColumn lookup (some source)) groupBy) :=
      carries_clause " GROUP BY " (carries_column (some source)) groupBy
    have hhaving := (carries_conditions (some source) "HAVING" having).append (horder.append hbounds)
    have hwhere := (carries_conditions (some source) "WHERE" conditions).append (hgroup.append hhaving)
    have hsource := (carries_source (some source) source).append hwhere
    exact .afterText ((carries_selectList (some source) columns).append (.afterText hsource))
termination_by structural x => x

end

end Sql

namespace Dialect

/-- A dialect whose upserts bind each of their arguments once and in order. -/
def Carrying (d : Dialect) : Prop :=
  ∀ lookup scope m oc, Carries (.ok oc.arguments) (d.upsert (Sql.emitOperand lookup scope) m oc)

variable {lookup : TypeId → Except Error Model}

private theorem carries_writeColumn (m : Model) (field : String) :
    Carries (.ok []) (writeColumn m field) := by
  have hf : Carries (.ok []) (Emission.ofExcept (m.requireField field)) := fun _ _ => rfl
  exact hf.after fun f _ => .name f.column

private theorem carries_upsertItem {incoming : String → Emission Unit}
    (hi : ∀ column, Carries (.ok []) (incoming column)) (scope : Option TableRef) (m : Model) : ∀ a,
    Carries (.ok a.arguments) (emitUpsertItem incoming (Sql.emitOperand lookup scope) m a)
  | .assign field value =>
    (carries_writeColumn m field).after fun _ _ => .afterText (Sql.carries_operand scope value)
  | .copy field => by
    have hf : Carries (.ok []) (Emission.ofExcept (m.requireField field)) := fun _ _ => rfl
    exact hf.after fun f _ => .afterName (.afterText (hi f.column))

private theorem carries_mysql (scope : Option TableRef) (m : Model) (oc : OnConflict) :
    Carries (.ok oc.arguments) (mysql.upsert (Sql.emitOperand lookup scope) m oc) := by
  have hi (column : String) : Carries (.ok []) (mysql.incoming column) :=
    .afterText (.afterName (.text ")"))
  obtain ⟨targets, assigns⟩ := oc
  cases assigns with
  | nil => exact .fail _
  | cons a rest => exact .afterText (.separatedAll (carries_upsertItem hi scope m) (a :: rest))

private theorem carries_postgres (scope : Option TableRef) (m : Model) (oc : OnConflict) :
    Carries (.ok oc.arguments) (postgres.upsert (Sql.emitOperand lookup scope) m oc) := by
  have hi (column : String) : Carries (.ok []) (postgres.incoming column) :=
    .afterText (.name column)
  have hitem (a : Assignable) : Carries (.ok a.arguments)
      (emitUpsertItem postgres.incoming (Sql.emitOperand lookup scope) m a) :=
    carries_upsertItem hi scope m a
  have ht (targets : List String) : Carries (.ok []) (separated (writeColumn m) targets) :=
    .separatedNone (carries_writeColumn m) targets
  obtain ⟨targets, assigns⟩ := oc
  match targets, assigns with
  | [], [] => exact .text _
  | [], _ :: _ => exact .fail _
  | t :: targets, [] => exact .afterText ((ht _).after fun _ _ => .afterText (.text _))
  | t :: targets, a :: rest =>
    have ha := Carries.separatedAll hitem (a :: rest)
    have hupdate : Carries (.ok (OnConflict.arguments ⟨t :: targets, a :: rest⟩))
        (Emission.text ")" >>= fun _ => Emission.text " DO UPDATE SET " >>= fun _ =>
          separated (emitUpsertItem postgres.incoming (Sql.emitOperand lookup scope) m) (a :: rest)) :=
      .afterText (.afterText ha)
    exact .afterText ((ht (t :: targets)).after fun _ _ => hupdate)

theorem carrying_of_given {d : Dialect} (hd : d ∈ given) : d.Carrying := by
  intro lookup scope m oc
  rcases eq_of_given hd with rfl | rfl | rfl
  · exact .fail _
  · exact carries_mysql scope m oc
  · exact carries_postgres scope m oc

end Dialect

namespace Compiler

variable (c : Compiler)

def rowArguments (m : Model) (fields : List Field) (e : Entity) : Except Error (List Value) :=
  fields.mapM fun f => c.access.read m e f.name

/-- The arguments of an item of the SET list of an update; a field has its value in the entity. -/
def setArguments (u : Updating) (m : Model) : Assignable → Except Error (List Value)
  | .assign _ value => .ok value.arguments
  | .copy field =>
    match u.source with
    | none => .ok []
    | some e => (fun v => [v]) <$> c.access.read m e field

/-- The arguments of a command, clause by clause. The entities of an insertion follow one another, each
with its fields in the order of the columns. -/
def arguments : Command → Except Error (List Value)
  | .select s => .ok s.query.arguments
  | .insert i => do
    let m ← c.lookup i.entity
    let fields ← insertedFields m i.fields
    let rows ← List.flatten <$> i.rows.mapM (c.rowArguments m fields)
    return rows ++ i.onConflict.elim [] OnConflict.arguments
  | .update u => do
    let m ← c.lookup u.entity
    let values ← List.flatten <$> u.assigns.mapM (c.setArguments u m)
    return values ++ Predicate.argumentsOfAll u.conditions
  | .delete d => .ok (Predicate.argumentsOfAll d.conditions)
  | .raw r => .ok r.args

variable {c}

private theorem carries_bindField (m : Model) (e : Entity) (field : String) :
    Carries ((fun v => [v]) <$> c.access.read m e field) (c.bindField m e field) := by
  have hv : Carries (.ok []) (Emission.ofExcept (c.access.read m e field)) := fun _ _ => rfl
  refine hv.after fun v ho => ?_
  rw [show c.access.read m e field = .ok v from ho]
  exact .bound v

private theorem flatten_mapM_singleton {α : Type} (g : α → Except Error Value) : ∀ items : List α,
    List.flatten <$> items.mapM (fun a => (fun v => [v]) <$> g a) = items.mapM g
  | [] => rfl
  | a :: rest => by
    rw [Carries.flatten_mapM_cons, flatten_mapM_singleton g rest, List.mapM_cons]
    cases g a with
    | error err => rfl
    | ok v => rfl

private theorem carries_row (m : Model) (fields : List Field) (e : Entity) :
    Carries (c.rowArguments m fields e) (c.emitRow m fields e) := by
  have h := Carries.separated (fun f : Field => carries_bindField (c := c) m e f.name) fields
  rw [flatten_mapM_singleton] at h
  exact h.bracketed

/-- The arguments that are left once the model and the fields of an insertion are known. -/
theorem arguments_insert {i : Insertion} {m : Model} {fields : List Field}
    (hm : c.lookup i.entity = .ok m) (hf : insertedFields m i.fields = .ok fields) :
    c.arguments (.insert i) = (do
      return (← List.flatten <$> i.rows.mapM (c.rowArguments m fields)) ++
        (← .ok (i.onConflict.elim [] OnConflict.arguments))) := by
  rw [arguments, hm]
  change (insertedFields m i.fields >>= _) = _
  rw [hf]
  rfl

private theorem carries_insertion (i : Insertion) (hd : i.onConflict.isSome → c.dialect.Carrying) :
    Carries (c.arguments (.insert i)) (c.emitInsertion i) := by
  unfold emitInsertion
  split
  · exact .fail _
  have hm : Carries (.ok []) (Emission.model c.lookup i.entity) := fun _ _ => rfl
  refine hm.after fun m hmodel => ?_
  have hf : Carries (.ok []) (Emission.ofExcept (insertedFields m i.fields)) := fun _ _ => rfl
  refine hf.after fun fields hfields => ?_
  have hcolumns : Carries (.ok []) (separated (fun f : Field => Emission.name f.column) fields) :=
    .separatedNone (fun f => .name f.column) fields
  have hrows := Carries.separated (carries_row (c := c) m fields) i.rows
  rw [arguments_insert hmodel hfields]
  refine .afterText (.afterName (.afterText (hcolumns.after fun _ _ => .afterText ?_)))
  refine hrows.bind ?_
  split
  · rename_i oc hoc
    rw [hoc]
    exact hd (by simp [hoc]) _ _ m oc
  · rename_i hoc
    rw [hoc]
    exact .pure ()

private theorem carries_assignable (u : Updating) (m : Model) : ∀ a,
    Carries (c.setArguments u m a) (c.emitAssignable u m a)
  | .assign field value =>
    (Dialect.carries_writeColumn m field).after fun _ _ => .afterText (Sql.carries_operand _ value)
  | .copy field => by
    rw [emitAssignable, setArguments]
    cases u.source with
    | none => exact .fail _
    | some e =>
      exact (Dialect.carries_writeColumn m field).after fun _ _ => .afterText (carries_bindField m e field)

private theorem carries_updating (u : Updating) : Carries (c.arguments (.update u)) (c.emitUpdating u) := by
  unfold emitUpdating
  split
  · exact .fail _
  have hm : Carries (.ok []) (Emission.model c.lookup u.entity) := fun _ _ => rfl
  refine hm.after fun m hmodel => ?_
  have hset := Carries.separated (carries_assignable (c := c) u m) u.assigns
  have hwhere : Carries (.ok (Predicate.argumentsOfAll u.conditions))
      (Sql.emitConditions c.lookup (scopeOf u.entity) "WHERE" u.conditions) :=
    Sql.carries_conditions _ "WHERE" u.conditions
  rw [arguments, show c.lookup u.entity = .ok m from hmodel]
  exact .afterText (.afterName (.afterText (hset.bind hwhere)))

private theorem carries_deletion (d : Deletion) : Carries (c.arguments (.delete d)) (c.emitDeletion d) := by
  have hm : Carries (.ok []) (Emission.model c.lookup d.entity) := fun _ _ => rfl
  exact hm.after fun _ _ =>
    .afterText (.afterName (Sql.carries_conditions _ "WHERE" d.conditions))

/-- The walk over a command carries the arguments of the command, if it succeeds. -/
theorem carries_emit (cmd : Command) (hk : cmd.kind ≠ .raw)
    (hd : cmd.onConflict?.isSome → c.dialect.Carrying) : Carries (c.arguments cmd) (c.emit cmd) := by
  cases cmd with
  | select s =>
    change Carries _ (c.emitSelection s)
    unfold emitSelection
    split
    · exact .fail _
    · exact Sql.carries_query s.query
  | insert i => exact carries_insertion i hd
  | update u => exact carries_updating u
  | delete d => exact carries_deletion d
  | raw r => exact absurd rfl hk

end Compiler

end EntitySql
