import EntitySql.Proofs.Sql.Argument

namespace EntitySql

/-- A fragment with its arguments blotted out. -/
def RawSql.masked (r : RawSql) : RawSql := ⟨r.sql, r.args.map fun _ => .null⟩

mutual

def Column.masked : Column → Column
  | ⟨none, field, aliasName⟩ => ⟨none, field, aliasName⟩
  | ⟨some source, field, aliasName⟩ => ⟨some source.masked, field, aliasName⟩
termination_by structural x => x

def Column.maskedAll : List Column → List Column
  | [] => []
  | c :: rest => c.masked :: Column.maskedAll rest
termination_by structural x => x

def Aggregate.masked : Aggregate → Aggregate
  | ⟨func, column, aliasName⟩ => ⟨func, column.masked, aliasName⟩
termination_by structural x => x

def Expr.masked : Expr → Expr
  | .column c => .column c.masked
  | .value _ => .value .null
  | .predicate p => .predicate p.masked
  | .aggregate a => .aggregate a.masked
  | .raw r => .raw r.masked
  | .subquery s => .subquery s.masked
  | .list items => .list (Expr.maskedAll items)
termination_by structural x => x

def Expr.maskedAll : List Expr → List Expr
  | [] => []
  | e :: rest => e.masked :: Expr.maskedAll rest
termination_by structural x => x

def Predicate.masked : Predicate → Predicate
  | .binary left op right => .binary left.masked op right.masked
  | .prefixed op operand => .prefixed op operand.masked
  | .raw r => .raw r.masked
termination_by structural x => x

def Predicate.maskedAll : List Predicate → List Predicate
  | [] => []
  | p :: rest => p.masked :: Predicate.maskedAll rest
termination_by structural x => x

def Selectable.masked : Selectable → Selectable
  | .column c => .column c.masked
  | .aggregate a => .aggregate a.masked
  | .raw r => .raw r.masked
  | .subquery s => .subquery s.masked
termination_by structural x => x

def Selectable.maskedAll : List Selectable → List Selectable
  | [] => []
  | item :: rest => item.masked :: Selectable.maskedAll rest
termination_by structural x => x

def OrderItem.masked : OrderItem → OrderItem
  | ⟨column, descending⟩ => ⟨column.masked, descending⟩
termination_by structural x => x

def OrderItem.maskedAll : List OrderItem → List OrderItem
  | [] => []
  | o :: rest => o.masked :: OrderItem.maskedAll rest
termination_by structural x => x

/-- A query with the same shape and no data; whether it has a LIMIT or an OFFSET is shape. -/
def Query.masked : Query → Query
  | ⟨source, columns, distinct, conditions, groupBy, having, orderBy, limit, offset⟩ =>
    ⟨source.masked, Selectable.maskedAll columns, distinct, Predicate.maskedAll conditions,
      Column.maskedAll groupBy, Predicate.maskedAll having, OrderItem.maskedAll orderBy,
      limit.map fun _ => .zero .u64, offset.map fun _ => .zero .u64⟩
termination_by structural x => x

def SubQuery.masked : SubQuery → SubQuery
  | ⟨query, aliasName⟩ => ⟨query.masked, aliasName⟩
termination_by structural x => x

def TableRef.masked : TableRef → TableRef
  | .table t => .table t
  | .join kind left right condition => .join kind left.masked right.masked condition.masked
  | .subquery s => .subquery s.masked
termination_by structural x => x

def JoinCondition.masked : JoinCondition → JoinCondition
  | .on conditions => .on (Predicate.maskedAll conditions)
  | .using fields => .using fields
termination_by structural x => x

end

def Assignable.masked : Assignable → Assignable
  | assign field value => .assign field value.masked
  | copy field => .copy field

def OnConflict.masked (oc : OnConflict) : OnConflict := ⟨oc.targets, oc.assigns.map Assignable.masked⟩

/-- An entity of which only the fields and their types are left. -/
def Entity.masked (e : Entity) : Entity :=
  ⟨e.type, e.size, e.cells.map fun cell => .blank cell.name cell.named cell.offset cell.size cell.type⟩

def Command.masked : Command → Command
  | select s => .select ⟨s.entity, s.query.masked, s.refused⟩
  | insert i =>
    .insert ⟨i.entity, i.rows.map Entity.masked, i.fields, i.onConflict.map OnConflict.masked⟩
  | update u =>
    .update ⟨u.entity, u.source.map Entity.masked, u.assigns.map Assignable.masked,
      Predicate.maskedAll u.conditions⟩
  | delete d => .delete ⟨d.entity, Predicate.maskedAll d.conditions⟩
  | raw r => .raw r.masked

def Piece.masked : Piece → Piece
  | text s => .text s
  | name s => .name s
  | bound _ => .bound .null
  | raw sql args => .raw sql (args.map fun _ => .null)

private theorem Spelling.text_masked (s : Spelling) (k : Nat) (ps : List Piece) :
    s.text k (ps.map Piece.masked) = s.text k ps := by
  induction ps generalizing k with
  | nil => rfl
  | cons p rest ih => cases p <;> simp [text, Piece.masked, ih]

private theorem length_argsOf_masked (ps : List Piece) :
    (argsOf (ps.map Piece.masked)).length = (argsOf ps).length := by
  induction ps with
  | nil => rfl
  | cons p rest ih =>
    have hp : p.masked.args.length = p.args.length := by cases p <;> simp [Piece.masked, Piece.args]
    simp only [argsOf, List.map_cons, List.flatMap_cons, List.length_append, hp] at ih ⊢
    rw [ih]

namespace Emission

variable {α β : Type}

/-- A walk with the values that it wrote blotted out. -/
def masked (e : Emission α) : Emission α := { e with pieces := e.pieces.map Piece.masked }

private theorem masked_bind (e : Emission α) (f : α → Emission β) :
    (e >>= f).masked = e.masked >>= fun a => (f a).masked := by
  rw [bind_def, bind_def]
  cases ho : e.outcome with
  | error err =>
    have hmasked : e.masked.outcome = .error err := ho
    rw [andThen_error ho, andThen_error hmasked]
    rfl
  | ok a =>
    have hmasked : e.masked.outcome = .ok a := ho
    rw [andThen_ok ho, andThen_ok hmasked]
    simp [masked]

/-- Walks that differ in nothing but the values that they write. -/
def Alike (e e' : Emission α) : Prop := e.masked = e'.masked

namespace Alike

private theorem refl (e : Emission α) : Alike e e := rfl

private theorem of_eq {e e' : Emission α} (h : e = e') : Alike e e' := congrArg masked h

private theorem bound (v v' : Value) : Alike (Emission.bound v) (Emission.bound v') := rfl

private theorem raw (r : RawSql) : Alike (Emission.raw r.masked) (Emission.raw r) := by
  simp [Alike, masked, Emission.raw, write, RawSql.masked, Piece.masked]

private theorem bind {e e' : Emission α} {f f' : α → Emission β} (he : Alike e e')
    (hf : ∀ a, Alike (f a) (f' a)) : Alike (e >>= f) (e' >>= f') := by
  have hall : (fun a => (f a).masked) = fun a => (f' a).masked := funext hf
  rw [Alike, masked_bind, masked_bind, hall, he]

/-- Alike walks, and after each an alike one. -/
theorem next {e e' next next' : Emission Unit} (he : Alike e e') (hn : Alike next next') :
    Alike (e >>= fun _ => next) (e' >>= fun _ => next') := he.bind fun _ => hn

private theorem after (e : Emission α) {f f' : α → Emission β} (hf : ∀ a, Alike (f a) (f' a)) :
    Alike (e >>= f) (e >>= f') := (refl e).bind hf

private theorem afterText {s : String} {next next' : Emission β} (hn : Alike next next') :
    Alike (Emission.text s >>= fun _ => next) (Emission.text s >>= fun _ => next') :=
  after _ fun _ => hn

private theorem afterName {s : String} {next next' : Emission β} (hn : Alike next next') :
    Alike (Emission.name s >>= fun _ => next) (Emission.name s >>= fun _ => next') :=
  after _ fun _ => hn

private theorem before {e e' : Emission Unit} (he : Alike e e') (next : Emission Unit) :
    Alike (e >>= fun _ => next) (e' >>= fun _ => next) := he.next (refl next)

private theorem bracketed {e e' : Emission Unit} (he : Alike e e') : Alike e.bracketed e'.bracketed :=
  afterText (he.before _)

private theorem separated {each each' : α → Emission Unit} {g : α → α}
    (h : ∀ a, Alike (each (g a)) (each' a)) : ∀ items,
    Alike (Emission.separated each (items.map g)) (Emission.separated each' items)
  | [] => refl _
  | [a] => h a
  | a :: second :: rest => (h a).next (afterText (separated h (second :: rest)))

end Alike

end Emission

private theorem Column.maskedAll_eq_map (cs : List Column) : Column.maskedAll cs = cs.map Column.masked := by
  induction cs with
  | nil => rfl
  | cons c rest ih => rw [Column.maskedAll, ih, List.map_cons]

private theorem OrderItem.maskedAll_eq_map (os : List OrderItem) :
    OrderItem.maskedAll os = os.map OrderItem.masked := by
  induction os with
  | nil => rfl
  | cons o rest ih => rw [OrderItem.maskedAll, ih, List.map_cons]

private theorem Selectable.maskedAll_eq_map (items : List Selectable) :
    Selectable.maskedAll items = items.map Selectable.masked := by
  induction items with
  | nil => rfl
  | cons item rest ih => rw [Selectable.maskedAll, ih, List.map_cons]

private theorem Predicate.maskedAll_eq_map (ps : List Predicate) :
    Predicate.maskedAll ps = ps.map Predicate.masked := by
  induction ps with
  | nil => rfl
  | cons p rest ih => rw [Predicate.maskedAll, ih, List.map_cons]

@[simp] theorem Column.aliasName_masked (c : Column) : c.masked.aliasName = c.aliasName := by
  obtain ⟨source, field, aliasName⟩ := c
  cases source <;> rfl

@[simp] theorem Selectable.aliasName_masked (item : Selectable) :
    item.masked.aliasName = item.aliasName := by
  cases item with
  | column c => exact c.aliasName_masked
  | aggregate a =>
    obtain ⟨func, column, aliasName⟩ := a
    rfl
  | raw r => rfl
  | subquery s =>
    obtain ⟨query, aliasName⟩ := s
    rfl

@[simp] theorem Predicate.isQuantified_masked (p : Predicate) :
    p.masked.isQuantified = p.isQuantified := by
  cases p <;> rfl

open Emission

namespace Sql

variable {lookup : TypeId → Except Error Model}

mutual

/-- Masking a source does not change what its fields are resolved to. -/
theorem resolve_masked (field : String) : ∀ source,
    Resolution.resolve lookup field source.masked = Resolution.resolve lookup field source
  | .table t => rfl
  | .join kind left right condition => by
    rw [TableRef.masked, Resolution.resolve, Resolution.resolve, resolve_masked field left,
      resolve_masked field right]
  | .subquery ⟨query, aliasName⟩ => by
    rw [TableRef.masked, SubQuery.masked, Resolution.resolve, Resolution.resolve,
      exposed_masked field query]
termination_by structural x => x

theorem exposed_masked (field : String) : ∀ query,
    Resolution.exposed lookup field query.masked = Resolution.exposed lookup field query
  | ⟨source, columns, distinct, conditions, groupBy, having, orderBy, limit, offset⟩ => by
    have hitem : ((fun item => item.aliasName == some field) ∘ Selectable.masked) =
        fun item => item.aliasName == some field := by
      funext item
      simp
    have hempty : (Selectable.maskedAll columns).isEmpty = columns.isEmpty := by
      rw [Selectable.maskedAll_eq_map]
      cases columns <;> rfl
    have hany : (Selectable.maskedAll columns).any (fun item => item.aliasName == some field) =
        columns.any fun item => item.aliasName == some field := by
      rw [Selectable.maskedAll_eq_map, List.any_map, hitem]
    rw [Query.masked, Resolution.exposed, Resolution.exposed, hempty, hany,
      resolve_masked field source, exposedItem_masked field _ columns]
termination_by structural x => x

theorem exposedItem_masked (field : String) (inSource : Unit → Emission String) : ∀ columns,
    Resolution.exposedItem lookup field inSource (Selectable.maskedAll columns) =
      Resolution.exposedItem lookup field inSource columns
  | [] => rfl
  | .column ⟨none, f, none⟩ :: rest => by
    rw [Selectable.maskedAll, Selectable.masked, Column.masked, Resolution.exposedItem,
      Resolution.exposedItem, exposedItem_masked field inSource rest]
  | .column ⟨some source, f, none⟩ :: rest => by
    rw [Selectable.maskedAll, Selectable.masked, Column.masked, Resolution.exposedItem,
      Resolution.exposedItem, resolve_masked field source, exposedItem_masked field inSource rest]
  | .column ⟨none, f, some a⟩ :: rest => by
    rw [Selectable.maskedAll, Selectable.masked, Column.masked, Resolution.exposedItem,
      Resolution.exposedItem, exposedItem_masked field inSource rest]
  | .column ⟨some source, f, some a⟩ :: rest => by
    rw [Selectable.maskedAll, Selectable.masked, Column.masked, Resolution.exposedItem,
      Resolution.exposedItem, exposedItem_masked field inSource rest]
  | .aggregate a :: rest => by
    rw [Selectable.maskedAll, Selectable.masked, Resolution.exposedItem, Resolution.exposedItem,
      exposedItem_masked field inSource rest]
  | .raw r :: rest => by
    rw [Selectable.maskedAll, Selectable.masked, Resolution.exposedItem, Resolution.exposedItem,
      exposedItem_masked field inSource rest]
  | .subquery s :: rest => by
    rw [Selectable.maskedAll, Selectable.masked, Resolution.exposedItem, Resolution.exposedItem,
      exposedItem_masked field inSource rest]
termination_by structural x => x

end

variable (scope : Option TableRef)

private theorem ofColumn_masked (c : Column) :
    Resolution.ofColumn lookup (scope.map TableRef.masked) c.masked =
      Resolution.ofColumn lookup scope c := by
  obtain ⟨source, field, aliasName⟩ := c
  cases source with
  | some source => exact resolve_masked field source
  | none =>
    cases scope with
    | some source => exact resolve_masked field source
    | none => rfl

private theorem column_masked (c : Column) :
    emitColumn lookup (scope.map TableRef.masked) c.masked = emitColumn lookup scope c := by
  rw [emitColumn, emitColumn, ofColumn_masked]

private theorem aggregate_masked (a : Aggregate) :
    emitAggregate lookup (scope.map TableRef.masked) a.masked = emitAggregate lookup scope a := by
  obtain ⟨func, column, aliasName⟩ := a
  rw [Aggregate.masked, emitAggregate, emitAggregate, column_masked]

private theorem orderItem_masked (o : OrderItem) :
    emitOrderItem lookup (scope.map TableRef.masked) o.masked = emitOrderItem lookup scope o := by
  obtain ⟨column, descending⟩ := o
  rw [OrderItem.masked, emitOrderItem, emitOrderItem, column_masked]

private theorem alike_asOperand (p : Predicate) {body body' : Emission Unit} (hb : Alike body body') :
    Alike (asOperand p.masked body) (asOperand p body') := by
  rw [asOperand, asOperand, Predicate.isQuantified_masked]
  split
  · exact hb
  · exact hb.bracketed

private theorem alike_clause {α : Type} (keyword : String) {each each' : α → Emission Unit} {g : α → α}
    (h : ∀ a, each (g a) = each' a) (items : List α) :
    Alike (emitClause keyword each (items.map g)) (emitClause keyword each' items) := by
  cases items with
  | nil => exact .refl _
  | cons a rest => exact .afterText (.separated (fun b => .of_eq (h b)) (a :: rest))

private theorem alike_bound (keyword : String) (n : Option (Integer .u64)) :
    Alike (emitBound keyword (n.map fun _ => .zero .u64)) (emitBound keyword n) := by
  cases n with
  | none => exact .refl _
  | some n => exact .afterText (.bound _ _)

mutual

private theorem alike_operand (scope : Option TableRef) : ∀ e,
    Alike (emitOperand lookup (scope.map TableRef.masked) e.masked) (emitOperand lookup scope e)
  | .column c => .of_eq (column_masked scope c)
  | .value _ => .bound _ _
  | .predicate p => alike_asOperand p (alike_predicate scope p)
  | .aggregate a => .of_eq (aggregate_masked scope a)
  | .raw r => .raw r
  | .subquery s => alike_subQuery s
  | .list items => .bracketed (alike_items scope items)
termination_by structural x => x

theorem alike_items (scope : Option TableRef) : ∀ items,
    Alike (emitItems lookup (scope.map TableRef.masked) (Expr.maskedAll items))
      (emitItems lookup scope items)
  | [] => .refl _
  | [e] => alike_operand scope e
  | e :: next :: rest => (alike_operand scope e).next (.afterText (alike_items scope (next :: rest)))
termination_by structural x => x

theorem alike_predicate (scope : Option TableRef) : ∀ p,
    Alike (emitPredicate lookup (scope.map TableRef.masked) p.masked) (emitPredicate lookup scope p)
  | .binary left _ right => (alike_operand scope left).next (.afterText (alike_operand scope right))
  | .prefixed _ operand => .afterText (alike_operand scope operand)
  | .raw r => .raw r
termination_by structural x => x

theorem alike_conjunction (scope : Option TableRef) : ∀ ps,
    Alike (emitConjunction lookup (scope.map TableRef.masked) (Predicate.maskedAll ps))
      (emitConjunction lookup scope ps)
  | [] => .refl _
  | [p] => .afterText (alike_asOperand p (alike_predicate scope p))
  | p :: next :: rest =>
    .afterText ((alike_asOperand p (alike_predicate scope p)).next
      (.afterText (alike_conjunction scope (next :: rest))))
termination_by structural x => x

private theorem alike_conditions (scope : Option TableRef) (keyword : String) : ∀ ps,
    Alike (emitConditions lookup (scope.map TableRef.masked) keyword (Predicate.maskedAll ps))
      (emitConditions lookup scope keyword ps)
  | [] => .refl _
  | [p] => .afterText (alike_predicate scope p)
  | p :: next :: rest => by
    have hlength : (Predicate.maskedAll rest).length = rest.length := by
      rw [Predicate.maskedAll_eq_map, List.length_map]
    rw [Predicate.maskedAll, Predicate.maskedAll, emitConditions, emitConditions, hlength]
    exact .afterText ((alike_asOperand p (alike_predicate scope p)).next
      (alike_conjunction scope (next :: rest)))
termination_by structural x => x

theorem alike_selectable (scope : Option TableRef) : ∀ item,
    Alike (emitSelectable lookup (scope.map TableRef.masked) item.masked)
      (emitSelectable lookup scope item)
  | .column c => by
    rw [Selectable.masked, emitSelectable, emitSelectable, column_masked, Column.aliasName_masked]
    exact .refl _
  | .aggregate ⟨func, column, aliasName⟩ => by
    rw [Selectable.masked, emitSelectable, emitSelectable, aggregate_masked]
    exact .refl _
  | .raw r => .raw r
  | .subquery ⟨query, aliasName⟩ => (alike_query query).bracketed.before _
termination_by structural x => x

theorem alike_selectList (scope : Option TableRef) : ∀ items,
    Alike (emitSelectList lookup (scope.map TableRef.masked) (Selectable.maskedAll items))
      (emitSelectList lookup scope items)
  | [] => .refl _
  | [item] => alike_selectable scope item
  | item :: next :: rest =>
    (alike_selectable scope item).next (.afterText (alike_selectList scope (next :: rest)))
termination_by structural x => x

theorem alike_source (scope : Option TableRef) : ∀ source,
    Alike (emitSource lookup (scope.map TableRef.masked) source.masked) (emitSource lookup scope source)
  | .table t => .refl _
  | .join _ left right (.on conditions) => by
    have hleft := alike_source scope left
    have hright := alike_source scope right
    have hon := alike_conditions scope "ON" conditions
    exact hleft.next (.afterText (hright.next hon))
  | .join kind left right (.using fields) => by
    -- The fields are resolved in the join itself, whose sides may hold data.
    have hfields : (fun field => Resolution.resolve lookup field
        (.join kind left.masked right.masked (.using fields))) =
        fun field => Resolution.resolve lookup field (.join kind left right (.using fields)) :=
      funext fun field => resolve_masked field (.join kind left right (.using fields))
    rw [TableRef.masked, JoinCondition.masked, emitSource, emitSource]
    simp only [funext_iff.mp hfields]
    exact (alike_source scope left).next (.afterText ((alike_source scope right).before _))
  | .subquery ⟨query, aliasName⟩ => (alike_query query).bracketed.before _
termination_by structural x => x

theorem alike_subQuery : ∀ s, Alike (emitSubQuery lookup s.masked) (emitSubQuery lookup s)
  | ⟨query, _⟩ => (alike_query query).bracketed
termination_by structural x => x

private theorem alike_query : ∀ q, Alike (emitQuery lookup q.masked) (emitQuery lookup q)
  | ⟨source, columns, distinct, conditions, groupBy, having, orderBy, limit, offset⟩ => by
    have hhaving : (Predicate.maskedAll having).isEmpty = having.isEmpty := by cases having <;> rfl
    have hgroup : (groupBy.map Column.masked).isEmpty = groupBy.isEmpty := by cases groupBy <;> rfl
    rw [Query.masked, emitQuery, emitQuery, hhaving, Column.maskedAll_eq_map,
      OrderItem.maskedAll_eq_map, hgroup]
    split
    · exact .refl _
    have hbounds := (alike_bound " LIMIT " limit).next (alike_bound " OFFSET " offset)
    have horder : Alike
        (emitClause " ORDER BY " (emitOrderItem lookup (some source.masked)) (orderBy.map OrderItem.masked))
        (emitClause " ORDER BY " (emitOrderItem lookup (some source)) orderBy) :=
      alike_clause " ORDER BY " (orderItem_masked (some source)) orderBy
    have hgroups : Alike
        (emitClause " GROUP BY " (emitColumn lookup (some source.masked)) (groupBy.map Column.masked))
        (emitClause " GROUP BY " (emitColumn lookup (some source)) groupBy) :=
      alike_clause " GROUP BY " (column_masked (some source)) groupBy
    have hgrouped := (alike_conditions (some source) "HAVING" having).next (horder.next hbounds)
    have hwhere := (alike_conditions (some source) "WHERE" conditions).next (hgroups.next hgrouped)
    have hsource := (alike_source (some source) source).next hwhere
    exact .afterText ((alike_selectList (some source) columns).next (.afterText hsource))
termination_by structural x => x

end

end Sql

namespace Dialect

/-- A dialect whose upserts are alike for clauses that differ in their data. -/
def Blind (d : Dialect) : Prop :=
  ∀ lookup scope m oc, Alike
    (d.upsert (Sql.emitOperand lookup (scope.map TableRef.masked)) m oc.masked)
    (d.upsert (Sql.emitOperand lookup scope) m oc)

private theorem alike_upsertItem {lookup : TypeId → Except Error Model} (incoming : String → Emission Unit)
    (scope : Option TableRef) (m : Model) : ∀ a, Alike
    (emitUpsertItem incoming (Sql.emitOperand lookup (scope.map TableRef.masked)) m a.masked)
    (emitUpsertItem incoming (Sql.emitOperand lookup scope) m a)
  | .assign _ value => .after _ fun _ => .afterText (Sql.alike_operand scope value)
  | .copy _ => .refl _

private theorem blind_of_given {d : Dialect} (hd : d ∈ given) : d.Blind := by
  rintro lookup scope m ⟨targets, assigns⟩
  have hitems (incoming : String → Emission Unit) (assigns : List Assignable) : Alike
      (separated (emitUpsertItem incoming (Sql.emitOperand lookup (scope.map TableRef.masked)) m)
        (assigns.map Assignable.masked))
      (separated (emitUpsertItem incoming (Sql.emitOperand lookup scope) m) assigns) :=
    .separated (alike_upsertItem incoming scope m) assigns
  rcases eq_of_given hd with rfl | rfl | rfl
  · exact .refl _
  · cases assigns with
    | nil => exact .refl _
    | cons a rest => exact .afterText (hitems _ (a :: rest))
  · cases targets with
    | nil => cases assigns <;> exact .refl _
    | cons t targets =>
      cases assigns with
      | nil => exact .refl _
      | cons a rest =>
        exact .afterText (.after _ fun _ => .afterText (.afterText (hitems _ (a :: rest))))

end Dialect

namespace Entity

private theorem placeOf?_masked (e : Entity) (name : String) : e.masked.placeOf? name = e.placeOf? name := by
  unfold placeOf? masked
  rw [List.findIdx?_map]
  rfl

private theorem placeAt?_masked (e : Entity) (offset : Nat) (type : FieldType) :
    e.masked.placeAt? offset type = e.placeAt? offset type := by
  unfold placeAt? masked
  rw [List.findIdx?_map]
  rfl

private theorem isSome_read?_masked (e : Entity) (place : Nat) :
    (e.masked.read? place).isSome = (e.read? place).isSome := by
  unfold read? masked
  simp

end Entity

private theorem Access.isSome_read?_masked (a : Access) (e : Entity) (f : Field) :
    (a.read? e.masked f).isSome = (a.read? e f).isSome := by
  cases a with
  | byOffset =>
    rw [read?, read?, RawAccess.read?, RawAccess.read?, e.placeAt?_masked]
    cases e.placeAt? f.offset f.raw.type with
    | none => rfl
    | some place => exact e.isSome_read?_masked place
  | byName =>
    rw [read?, read?, Entity.readNamed?, Entity.readNamed?, e.placeOf?_masked]
    cases e.placeOf? f.name with
    | none => rfl
    | some place => exact e.isSome_read?_masked place

/-- Whether the value of a field can be read does not depend on the contents of the entity. -/
theorem Access.read_masked (a : Access) (m : Model) (e : Entity) (field : String) :
    (∃ err, a.read m e.masked field = .error err ∧ a.read m e field = .error err) ∨
      ∃ v v', a.read m e.masked field = .ok v ∧ a.read m e field = .ok v' := by
  have htype : e.masked.type = e.type := rfl
  rw [read, read, htype]
  cases m.check e.type with
  | error err => exact .inl ⟨err, rfl, rfl⟩
  | ok _ =>
    cases m.requireField field with
    | error err => exact .inl ⟨err, rfl, rfl⟩
    | ok f =>
      have hsome := a.isSome_read?_masked e f
      simp only
      cases hv : a.read? e.masked f with
      | none =>
        rw [hv] at hsome
        have hnone : a.read? e f = none := Option.isNone_iff_eq_none.mp (Option.isSome_eq_false_iff.mp hsome.symm)
        rw [hnone]
        exact .inl ⟨_, rfl, rfl⟩
      | some v =>
        rw [hv] at hsome
        obtain ⟨v', hv'⟩ := Option.isSome_iff_exists.mp hsome.symm
        rw [hv']
        exact .inr ⟨v, v', rfl, rfl⟩

private theorem Command.isSome_onConflict?_masked (cmd : Command) :
    cmd.masked.onConflict?.isSome = cmd.onConflict?.isSome := by
  cases cmd with
  | insert i =>
    obtain ⟨entity, rows, fields, oc⟩ := i
    cases oc <;> rfl
  | _ => rfl

private theorem Command.kind_masked (cmd : Command) : cmd.masked.kind = cmd.kind := by
  cases cmd <;> rfl

namespace Compiler

variable {c : Compiler}

private theorem alike_bindField (m : Model) (e : Entity) (field : String) :
    Alike (c.bindField m e.masked field) (c.bindField m e field) := by
  rw [bindField, bindField]
  rcases c.access.read_masked m e field with ⟨err, h, h'⟩ | ⟨v, v', h, h'⟩
  · rw [h, h']
    exact .refl _
  · rw [h, h']
    exact .bound v v'

private theorem alike_row (m : Model) (fields : List Field) (e : Entity) :
    Alike (c.emitRow m fields e.masked) (c.emitRow m fields e) := by
  have hfield (f : Field) : Alike (c.bindField m e.masked (id f).name) (c.bindField m e f.name) :=
    alike_bindField m e f.name
  have hfields : Alike (separated (fun f => c.bindField m e.masked f.name) (fields.map id))
      (separated (fun f => c.bindField m e f.name) fields) := Alike.separated hfield fields
  rw [List.map_id] at hfields
  exact hfields.bracketed

private theorem alike_insertion (i : Insertion) (hd : i.onConflict.isSome → c.dialect.Blind) :
    Alike (c.emitInsertion
      ⟨i.entity, i.rows.map Entity.masked, i.fields, i.onConflict.map OnConflict.masked⟩)
      (c.emitInsertion i) := by
  obtain ⟨entity, rows, fields, oc⟩ := i
  have hempty : (rows.map Entity.masked).isEmpty = rows.isEmpty := by cases rows <;> rfl
  rw [emitInsertion, emitInsertion, hempty]
  split
  · exact .refl _
  refine .after _ fun m => .after _ fun fields => ?_
  have hrows := Alike.separated (alike_row (c := c) m fields) rows
  refine .afterText (.afterName (.afterText (.after _ fun _ => .afterText (hrows.next ?_))))
  cases oc with
  | none => exact .refl _
  | some oc => exact hd rfl c.lookup (scopeOf entity) m oc

private theorem alike_assignable (entity : TypeId) (source : Option Entity) (assigns assigns' : List Assignable)
    (conditions conditions' : List Predicate) (m : Model) : ∀ a, Alike
    (c.emitAssignable ⟨entity, source.map Entity.masked, assigns, conditions⟩ m a.masked)
    (c.emitAssignable ⟨entity, source, assigns', conditions'⟩ m a)
  | .assign _ value => .after _ fun _ => .afterText (Sql.alike_operand (scopeOf entity) value)
  | .copy field => by
    rw [Assignable.masked, emitAssignable, emitAssignable]
    cases source with
    | none => exact .refl _
    | some e => exact .after _ fun _ => .afterText (alike_bindField m e field)

private theorem alike_updating (u : Updating) : Alike
    (c.emitUpdating ⟨u.entity, u.source.map Entity.masked, u.assigns.map Assignable.masked,
      Predicate.maskedAll u.conditions⟩)
    (c.emitUpdating u) := by
  obtain ⟨entity, source, assigns, conditions⟩ := u
  have hempty : (assigns.map Assignable.masked).isEmpty = assigns.isEmpty := by cases assigns <;> rfl
  rw [emitUpdating, emitUpdating, hempty]
  split
  · exact .refl _
  refine .after _ fun m => .afterText (.afterName (.afterText ?_))
  have hset := Alike.separated
    (alike_assignable (c := c) entity source (assigns.map Assignable.masked) assigns
      (Predicate.maskedAll conditions) conditions m) assigns
  exact hset.next (Sql.alike_conditions (scopeOf entity) "WHERE" conditions)

/-- The walk over a masked command is alike to the walk over the command. -/
theorem alike_emit (cmd : Command) (hd : cmd.onConflict?.isSome → c.dialect.Blind) :
    Alike (c.emit cmd.masked) (c.emit cmd) := by
  cases cmd with
  | select s =>
    obtain ⟨entity, query, refused⟩ := s
    cases refused with
    | some message => exact .refl _
    | none => exact Sql.alike_query query
  | insert i => exact alike_insertion i hd
  | update u => exact alike_updating u
  | delete d =>
    refine .after _ fun m => .afterText (.afterName ?_)
    exact Sql.alike_conditions (scopeOf d.entity) "WHERE" d.conditions
  | raw r => exact .refl _

/-- Alike walks have one outcome and spell one text. -/
theorem statement_alike {e e' : Emission Unit} (h : Alike e e') (s : Spelling) :
    e.outcome = e'.outcome ∧ (s.statement e.pieces).sql = (s.statement e'.pieces).sql ∧
      (s.statement e.pieces).args.length = (s.statement e'.pieces).args.length := by
  have hpieces : e.pieces.map Piece.masked = e'.pieces.map Piece.masked := congrArg Emission.pieces h
  have houtcome : e.masked.outcome = e'.masked.outcome := congrArg Emission.outcome h
  refine ⟨houtcome, ?_, ?_⟩
  · rw [Spelling.statement, Spelling.statement, ← s.text_masked, hpieces, s.text_masked]
  · rw [Spelling.statement, Spelling.statement, ← length_argsOf_masked, hpieces, length_argsOf_masked]

/-- Commands of one shape fail with one error or have one text. The arguments of each are its own data,
and an argument of one stands where the argument of that number stands in the other. -/
theorem build_of_masked_eq {x y : Command} (hxy : x.masked = y.masked)
    (hd : x.onConflict?.isSome →
      c.dialect ∈ Dialect.given ∨ c.dialect.Blind ∧ c.dialect.Carrying) :
    (∃ err, c.build x = .error err ∧ c.build y = .error err) ∨
      ∃ s t, c.build x = .ok s ∧ c.build y = .ok t ∧ s.sql = t.sql ∧
        s.args.length = t.args.length ∧ c.arguments x = .ok s.args ∧ c.arguments y = .ok t.args ∧
        (c.emit x).pieces.map Piece.masked = (c.emit y).pieces.map Piece.masked := by
  have hupsert : x.onConflict?.isSome = y.onConflict?.isSome := by
    rw [← x.isSome_onConflict?_masked, hxy, y.isSome_onConflict?_masked]
  have hkind : x.kind = y.kind := by rw [← x.kind_masked, hxy, y.kind_masked]
  have hboth (hx : x.onConflict?.isSome) : c.dialect.Blind ∧ c.dialect.Carrying :=
    (hd hx).elim (fun h => ⟨Dialect.blind_of_given h, Dialect.carrying_of_given h⟩) id
  by_cases hraw : x.kind = .raw
  · obtain ⟨r, rfl⟩ := Command.eq_raw_of_kind hraw
    obtain ⟨q, rfl⟩ := Command.eq_raw_of_kind (hkind ▸ hraw)
    have hmasked : r.masked = q.masked := Command.raw.inj hxy
    have hsql : r.masked.sql = q.masked.sql := by rw [hmasked]
    have hlength : r.masked.args.length = q.masked.args.length := by rw [hmasked]
    simp only [RawSql.masked, List.length_map] at hsql hlength
    exact .inr ⟨_, _, rfl, rfl, hsql, hlength, rfl, rfl, rfl⟩
  · have halike : Alike (c.emit x) (c.emit y) := by
      have hx : Alike (c.emit x.masked) (c.emit x) := alike_emit x fun h => (hboth h).1
      have hy : Alike (c.emit y.masked) (c.emit y) := alike_emit y fun h => (hboth (hupsert ▸ h)).1
      rw [hxy] at hx
      exact hx.symm.trans hy
    obtain ⟨houtcome, hsql, hlength⟩ := statement_alike halike c.dialect.spelling
    have hpieces : (c.emit x).pieces.map Piece.masked = (c.emit y).pieces.map Piece.masked :=
      congrArg Emission.pieces halike
    have hcx := carries_emit x hraw fun h => (hboth h).2
    have hcy := carries_emit y (hkind ▸ hraw) fun h => (hboth (hupsert ▸ h)).2
    cases ho : (c.emit x).outcome with
    | error err =>
      have ho' := houtcome ▸ ho
      exact .inl ⟨err, build_eq_error_iff.mpr ho, build_eq_error_iff.mpr ho'⟩
    | ok u =>
      have ho' := houtcome ▸ ho
      exact .inr ⟨_, _, build_of_outcome hraw ho, build_of_outcome (hkind ▸ hraw) ho', hsql, hlength,
        hcx u ho, hcy u ho', hpieces⟩

/-- Two selections of one shape: the values of a list and the limit differ, the text does not. -/
theorem build_of_masked_eq_select :
    let m : Model := ⟨"notes", .named "Note", [⟨"score", "score", 0, 8, ⟨.integer .i64⟩, 0⟩]⟩
    let c : Compiler := ⟨.postgres, .byOffset, fun _ => .ok m⟩
    let best (v : Value) (n : Integer .u64) : Command := .select
      (((Selection.all (.named "Note")).filterBy
        [(Column.named "score").inList [.value v, .value .null]]).limit n)
    ∃ s t, c.build (best (.bool true) (.zero .u64)) = .ok s ∧
      c.build (best (.text "1); --") default) = .ok t ∧ s.sql = t.sql ∧
      s.args.length = t.args.length ∧ s.args ≠ t.args := by
  intro m c best
  have hxy : (best (.bool true) (.zero .u64)).masked = (best (.text "1); --") default).masked := rfl
  have hbuild : c.build (best (.bool true) (.zero .u64)) = .ok (c.dialect.spelling.statement
      (c.emit (best (.bool true) (.zero .u64))).pieces) := rfl
  rcases build_of_masked_eq (c := c) hxy (fun h => absurd h (by decide)) with
    ⟨err, h, -⟩ | ⟨s, t, hs, ht, hsql, hlength, hx, hy, -⟩
  · rw [hbuild] at h
    cases h
  · refine ⟨s, t, hs, ht, hsql, hlength, ?_⟩
    have hx' : s.args = [.bool true, .null, .uint (.zero .u64)] := (Except.ok.inj hx).symm
    have hy' : t.args = [.text "1); --", .null, .uint default] := (Except.ok.inj hy).symm
    rw [hx', hy']
    simp

end Compiler

end EntitySql
