import EntitySql.Sql.Builder
import EntitySql.Sql.Query

namespace EntitySql

variable {α β : Type}

namespace Build

private theorem run_bind (walk : Build α) (f : α → Build β) (b : Builder) :
    (walk >>= f).run b =
      match walk.run b with
      | (.ok a, b') => (f a).run b'
      | (.error err, b') => (.error err, b') := by
  show StateT.run (ExceptT.run (walk >>= f)) b = _
  rw [ExceptT.run_bind, StateT.run_bind]
  cases h : walk.run b with
  | mk r b' =>
    have h' : StateT.run (ExceptT.run walk) b = (r, b') := h
    rw [h']
    cases r <;> rfl

private theorem run_tryCatch (walk : Build α) (f : Error → Build α) (b : Builder) :
    (tryCatch walk f).run b =
      match walk.run b with
      | (.ok a, b') => (.ok a, b')
      | (.error err, b') => (f err).run b' := by
  show StateT.run (ExceptT.run (tryCatch walk f)) b = _
  rw [ExceptT.run_tryCatch, StateT.run_bind]
  cases h : walk.run b with
  | mk r b' =>
    have h' : StateT.run (ExceptT.run walk) b = (r, b') := h
    rw [h']
    cases r <;> rfl

private theorem run_ofExcept (r : Except Error α) (b : Builder) :
    (MonadExcept.ofExcept r : Build α).run b = (r, b) := by
  cases r <;> rfl

private theorem ext {walk walk' : Build α} (h : ∀ b, walk.run b = walk'.run b) : walk = walk' := funext h

end Build

namespace Builder

variable {schema : Schema}

theorem run_writeName (s : String) (b : Builder) :
    (writeName s).run b = (.ok (), { b with sql := b.sql ++ b.dialect.spelling.name s }) := rfl

theorem run_bindValue (v : Value) (b : Builder) :
    (bindValue v).run b =
      (.ok (), { b with
        sql := b.sql ++ b.dialect.spelling.placeholder (b.args ++ [v]).length
        args := b.args ++ [v] }) := rfl

theorem run_writeRaw (r : RawSql) (b : Builder) :
    (writeRaw r).run b = (.ok (), { b with sql := b.sql ++ r.sql, args := b.args ++ r.args }) := rfl

private theorem run_tableModel (t : Table) (b : Builder) :
    (tableModel schema t).run b =
      (b.registry.view schema t.entity, { b with registry := b.registry.consult schema t.entity }) :=
  Build.run_ofExcept _ _

/-- Two texts in a row are one text. -/
theorem write_write (s t : String) (next : Build α) :
    (do write s; write t; next) = (do write (s ++ t); next) := by
  refine Build.ext fun b => ?_
  show next.run { b with sql := b.sql ++ s ++ t } = next.run { b with sql := b.sql ++ (s ++ t) }
  rw [String.append_assoc]

@[simp] theorem scope_put (b : Builder) (e : Emission α) : (b.put schema e).2.scope = b.scope := rfl

private theorem view_put (b : Builder) (e : Emission α) :
    (b.put schema e).2.registry.view schema = b.registry.view schema :=
  funext fun t => b.registry.view_consultAll schema e.consulted t

private theorem put_pure (b : Builder) (a : α) : b.put schema (pure a) = (.ok a, b) := by
  simp [put, pure, Registry.consultAll, Spelling.text, argsOf]

theorem put_text (b : Builder) (s : String) :
    b.put schema (Emission.text s) = (.ok (), { b with sql := b.sql ++ s }) := by
  simp [put, Emission.text, Emission.write, Registry.consultAll, Spelling.text, argsOf, Piece.args]

theorem put_bind (b : Builder) (e : Emission α) (f : α → Emission β) :
    b.put schema (e >>= f) =
      match b.put schema e with
      | (.ok a, b') => b'.put schema (f a)
      | (.error err, b') => (.error err, b') := by
  rw [Emission.bind_def]
  cases he : e.outcome with
  | error err => simp [put, Emission.andThen_error he, he]
  | ok a =>
    simp [put, Emission.andThen_ok he, he, Registry.consultAll, argsOf_append, Spelling.text_append,
      argCount, String.append_assoc]

private theorem put_orElseField (b : Builder) (e : Emission α) (f : Unit → Emission α) :
    b.put schema (e.orElseField f) =
      match b.put schema e with
      | (.error (.invalidField _), b') => b'.put schema (f ())
      | r => r := by
  cases he : e.outcome with
  | ok a => simp [put, Emission.orElseField, he]
  | error err =>
    cases err <;>
      simp [put, Emission.orElseField, he, Registry.consultAll, argsOf_append, Spelling.text_append,
        argCount, String.append_assoc]

/-- A walk that does no more than write an emission, wherever the registry shows the models of `lookup`
and `scope` is in scope. -/
def Writes (schema : Schema) (lookup : TypeId → Except Error Model) (scope : Option TableRef)
    (walk : Build α) (e : Emission α) : Prop :=
  ∀ b : Builder, b.registry.view schema = lookup → b.scope = scope → walk.run b = b.put schema e

namespace Writes

variable {lookup : TypeId → Except Error Model} {scope : Option TableRef}

theorem pure (a : α) : Writes schema lookup scope (Pure.pure a) (Pure.pure a) :=
  fun b _ _ => (b.put_pure a).symm

theorem bind {walk : Build α} {e : Emission α} {f : α → Build β} {g : α → Emission β}
    (he : Writes schema lookup scope walk e) (hf : ∀ a, Writes schema lookup scope (f a) (g a)) :
    Writes schema lookup scope (walk >>= f) (e >>= g) := by
  intro b hview hscope
  rw [Build.run_bind, put_bind, he b hview hscope]
  cases hput : b.put schema e with
  | mk r b' =>
    have hview' : b'.registry.view schema = lookup := by
      rw [← hview, ← b.view_put e, hput]
    have hscope' : b'.scope = scope := by rw [← hscope, ← b.scope_put e, hput]
    cases r with
    | ok a => exact hf a b' hview' hscope'
    | error err => rfl

theorem next {walk next : Build Unit} {e n : Emission Unit} (he : Writes schema lookup scope walk e)
    (hn : Writes schema lookup scope next n) :
    Writes schema lookup scope (do walk; next) (do e; n) :=
  he.bind fun _ => hn

private theorem map {walk : Build α} {e : Emission α} (g : α → β) (he : Writes schema lookup scope walk e) :
    Writes schema lookup scope (g <$> walk) (g <$> e) := by
  rw [map_eq_pure_bind, map_eq_pure_bind]
  exact he.bind fun a => .pure (g a)

theorem text (s : String) : Writes schema lookup scope (write s) (Emission.text s) :=
  fun b _ _ => (b.put_text s).symm

theorem name (s : String) : Writes schema lookup scope (writeName s) (Emission.name s) := fun b _ _ => by
  simp [run_writeName, put, Emission.name, Emission.write, Registry.consultAll, Spelling.text, argsOf,
    Piece.args]

theorem bound (v : Value) : Writes schema lookup scope (bindValue v) (Emission.bound v) := fun b _ _ => by
  simp [run_bindValue, put, Emission.bound, Emission.write, Registry.consultAll, Spelling.text, argsOf,
    Piece.args, argCount]

private theorem raw (r : RawSql) : Writes schema lookup scope (writeRaw r) (Emission.raw r) := fun b _ _ => by
  simp [run_writeRaw, put, Emission.raw, Emission.write, Registry.consultAll, Spelling.text, argsOf,
    Piece.args]

theorem ofExcept (r : Except Error α) :
    Writes schema lookup scope (MonadExcept.ofExcept r) (Emission.ofExcept r) := fun b _ _ => by
  simp [Build.run_ofExcept, put, Emission.ofExcept, Registry.consultAll, Spelling.text, argsOf]

theorem fail (err : Error) : Writes schema lookup scope (throw err : Build α) (Emission.fail err) :=
  ofExcept (.error err)

theorem model (t : Table) :
    Writes schema lookup scope (tableModel schema t) (Emission.model lookup t.entity) := by
  rintro b rfl -
  simp [run_tableModel, put, Emission.model, Registry.consultAll, Spelling.text, argsOf]

/-- A second walk in place of a first that met an unknown field. -/
theorem orElseField {walk other : Build α} {e : Emission α} {f : Unit → Emission α}
    (he : Writes schema lookup scope walk e) (hf : Writes schema lookup scope other (f ())) :
    Writes schema lookup scope
      (tryCatch walk fun
        | .invalidField _ => other
        | err => throw err)
      (e.orElseField f) := by
  intro b hview hscope
  rw [Build.run_tryCatch, put_orElseField, he b hview hscope]
  cases hput : b.put schema e with
  | mk r b' =>
    have hview' : b'.registry.view schema = lookup := by
      rw [← hview, ← b.view_put e, hput]
    have hscope' : b'.scope = scope := by rw [← hscope, ← b.scope_put e, hput]
    cases r with
    | ok a => rfl
    | error err =>
      cases err with
      | invalidField field => exact hf b' hview' hscope'
      | _ => rfl

theorem within {source : TableRef} {walk : Build Unit} {e : Emission Unit}
    (he : Writes schema lookup (some source) walk e) :
    Writes schema lookup scope (Builder.within source walk) e := by
  rintro b hview rfl
  have hrun : (Builder.within source walk).run b =
      ((walk.run { b with scope := some source }).1,
        { (walk.run { b with scope := some source }).2 with scope := b.scope }) := rfl
  rw [hrun, he { b with scope := some source } hview rfl]
  rfl

theorem bracketed {walk : Build Unit} {e : Emission Unit} (he : Writes schema lookup scope walk e) :
    Writes schema lookup scope (Builder.bracketed walk) e.bracketed :=
  (text "(").next (he.next (text ")"))

theorem separated {each : α → Build Unit} {each' : α → Emission Unit}
    (h : ∀ a, Writes schema lookup scope (each a) (each' a)) :
    ∀ items, Writes schema lookup scope (Builder.separated each items) (Emission.separated each' items)
  | [] => .pure ()
  | [a] => h a
  | a :: b :: rest => (h a).next ((text ", ").next (separated h (b :: rest)))

/-- Two texts in a row are one text. -/
theorem merge {walk : Build α} {s t : String} {n : Emission α}
    (h : Writes schema lookup scope walk (do Emission.text s; Emission.text t; n)) :
    Writes schema lookup scope walk (do Emission.text (s ++ t); n) := by
  intro b hview hscope
  rw [h b hview hscope]
  simp only [put_bind, put_text]
  rw [String.append_assoc]

private theorem opened {walk : Build α} {n : Emission α} (h : Writes schema lookup scope walk n) :
    Writes schema lookup scope walk (do Emission.text ""; n) := by
  intro b hview hscope
  rw [h b hview hscope, put_bind, put_text]
  simp

theorem spaced (s : String) {next : Build α} {n : Emission α} (hn : Writes schema lookup scope next n) :
    Writes schema lookup scope (do write " "; write s; write " "; next)
      (do Emission.text (" " ++ s ++ " "); n) := by
  rw [write_write, write_write]
  exact (text _).bind fun _ => hn

/-- A walk with the alias of its item, where it shows one. -/
theorem aliased {walk : Build Unit} {e : Emission Unit} (he : Writes schema lookup scope walk e)
    (aliasName : Option String) :
    Writes schema lookup scope (do walk; writeAlias aliasName) (do e; Sql.writeAlias aliasName) := by
  refine he.next ?_
  cases aliasName with
  | none => exact .pure ()
  | some a => exact (text _).next (name a)

end Writes

section

variable {lookup : TypeId → Except Error Model}

mutual

theorem writes_resolve (scope : Option TableRef) (field : String) : ∀ source,
    Writes schema lookup scope (resolve schema field source) (Resolution.resolve lookup field source)
  | .table t => (Writes.model t).bind fun _ => (Writes.ofExcept _).bind fun _ => .pure _
  | .join _ left right _ => (writes_resolve scope field left).orElseField (writes_resolve scope field right)
  | .subquery ⟨query, _⟩ => (writes_exposed scope field query).bind fun _ => .pure _
termination_by structural x => x

theorem writes_exposed (scope : Option TableRef) (field : String) : ∀ query,
    Writes schema lookup scope (exposed schema field query) (Resolution.exposed lookup field query)
  | ⟨source, columns, _, _, _, _, _, _, _⟩ => by
    have hsource := (writes_resolve scope field source).map (·.2)
    rw [exposed, Resolution.exposed]
    split
    · exact hsource
    split
    · exact .pure field
    · exact writes_exposedItem scope field hsource columns
termination_by structural x => x

theorem writes_exposedItem (scope : Option TableRef) (field : String) {inSource : Build String}
    {inSource' : Unit → Emission String} (hsource : Writes schema lookup scope inSource (inSource' ())) :
    ∀ columns, Writes schema lookup scope (exposedItem schema field inSource columns)
      (Resolution.exposedItem lookup field inSource' columns)
  | [] => .fail _
  | .column ⟨none, f, none⟩ :: rest => by
    rw [exposedItem, Resolution.exposedItem]
    split
    · exact hsource
    · exact writes_exposedItem scope field hsource rest
  | .column ⟨some source, f, none⟩ :: rest => by
    rw [exposedItem, Resolution.exposedItem]
    split
    · exact (writes_resolve scope field source).map _
    · exact writes_exposedItem scope field hsource rest
  | .column ⟨none, _, some _⟩ :: rest => writes_exposedItem scope field hsource rest
  | .column ⟨some _, _, some _⟩ :: rest => writes_exposedItem scope field hsource rest
  | .aggregate _ :: rest => writes_exposedItem scope field hsource rest
  | .raw _ :: rest => writes_exposedItem scope field hsource rest
  | .subquery _ :: rest => writes_exposedItem scope field hsource rest
termination_by structural x => x

end

variable (scope : Option TableRef)

private theorem writes_resolveColumn (c : Column) :
    Writes schema lookup scope (resolveColumn schema c) (Resolution.ofColumn lookup scope c) := by
  intro b hview hscope
  obtain ⟨source, field, aliasName⟩ := c
  cases source with
  | some source =>
    have hrun : (resolveColumn schema ⟨some source, field, aliasName⟩).run b =
        (resolve schema field source).run b := rfl
    rw [hrun]
    exact writes_resolve scope field source b hview hscope
  | none =>
    cases scope with
    | some source =>
      have hrun : (resolveColumn schema ⟨none, field, aliasName⟩).run b =
          (resolve schema field source).run b := by
        cases b
        cases hscope
        rfl
      rw [hrun]
      exact writes_resolve (some source) field source b hview hscope
    | none =>
      have hrun : (resolveColumn schema ⟨none, field, aliasName⟩).run b =
          (throw (Error.invalidField field) : Build (Option String × String)).run b := by
        cases b
        cases hscope
        rfl
      rw [hrun]
      exact Writes.fail _ b hview hscope

private theorem writes_resolved : ∀ r : Option String × String,
    Writes schema lookup scope (writeResolved r) (Sql.writeResolved r)
  | (some _, _) => (Writes.name _).next ((Writes.text _).next (.name _))
  | (none, _) => .name _

private theorem writes_column (c : Column) :
    Writes schema lookup scope (writeColumn schema c false) (Sql.emitColumn lookup scope c) := by
  simp only [writeColumn, Bool.false_eq_true, if_false, bind_pure_unit]
  exact (writes_resolveColumn scope c).bind (writes_resolved scope)

private theorem writes_aliasedColumn (c : Column) :
    Writes schema lookup scope (writeColumn schema c true)
      (do Sql.emitColumn lookup scope c; Sql.writeAlias c.aliasName) := by
  have hcolumn : Writes schema lookup scope _ _ := (writes_column scope c).aliased c.aliasName
  simpa only [writeColumn, Bool.false_eq_true, if_false, if_true, bind_pure_unit, bind_assoc] using hcolumn

private theorem writes_aggregate (a : Aggregate) :
    Writes schema lookup scope (writeAggregate schema a false) (Sql.emitAggregate lookup scope a) := by
  simp only [writeAggregate, write_write, Bool.false_eq_true, if_false, bind_pure_unit]
  exact (Writes.text _).next ((writes_column scope a.column).next (.text _))

private theorem writes_aliasedAggregate (a : Aggregate) :
    Writes schema lookup scope (writeAggregate schema a true)
      (do Sql.emitAggregate lookup scope a; Sql.writeAlias a.aliasName) := by
  have haggregate : Writes schema lookup scope _ _ := (writes_aggregate scope a).aliased a.aliasName
  simpa only [writeAggregate, Bool.false_eq_true, if_false, if_true, bind_pure_unit, bind_assoc]
    using haggregate

private theorem writes_orderItem (o : OrderItem) :
    Writes schema lookup scope (writeOrderItem schema o) (Sql.emitOrderItem lookup scope o) :=
  (writes_column scope o.column).next (.text _)

private theorem writes_clause (keyword : String) {each : α → Build Unit} {each' : α → Emission Unit}
    (h : ∀ a, Writes schema lookup scope (each a) (each' a)) (items : List α) :
    Writes schema lookup scope (writeClause keyword each items) (Sql.emitClause keyword each' items) := by
  cases items with
  | nil => exact .pure ()
  | cons a rest => exact (Writes.text keyword).next (.separated h (a :: rest))

private theorem writes_bound (keyword : String) (n : Option (Integer .u64)) :
    Writes schema lookup scope (writeBound keyword n) (Sql.emitBound keyword n) := by
  cases n with
  | none => exact .pure ()
  | some n => exact (Writes.text keyword).next (.bound _)

private theorem writes_asOperand {walk : Build Unit} {e : Emission Unit}
    (he : Writes schema lookup scope walk e) (quantified : Bool) :
    Writes schema lookup scope (asOperand quantified walk) (if quantified then e else e.bracketed) := by
  cases quantified with
  | true => exact he
  | false => exact he.bracketed

/-- The conjunction of a predicate, given what it is written as, with further ones: as many parentheses
open as will be closed, but the last. -/
def joined (lookup : TypeId → Except Error Model) (scope : Option TableRef) (quantified : Bool)
    (e : Emission Unit) : List Predicate → Emission Unit
  | [] => e
  | p :: rest => do
    Emission.text (String.ofList (List.replicate rest.length '('))
    (if quantified then e else e.bracketed : Emission Unit)
    Sql.emitConjunction lookup scope (p :: rest)

private theorem bracketed_bind (e next : Emission Unit) :
    (do e.bracketed; next) = (do Emission.text "("; e; Emission.text ")"; next) := by
  rw [Emission.bracketed, bind_assoc, funext fun _ : Unit => bind_assoc e _ _]

mutual

theorem writes_operand (scope : Option TableRef) : ∀ e,
    Writes schema lookup scope (writeOperand schema e) (Sql.emitOperand lookup scope e)
  | .column c => writes_column scope c
  | .value v => .bound v
  | .predicate p => writes_asOperand scope (writes_predicate scope p) p.isQuantified
  | .aggregate a => writes_aggregate scope a
  | .raw r => .raw r
  | .subquery ⟨query, _⟩ => by
    simp only [writeOperand, writeSubQuery, Bool.false_eq_true, if_false, bind_pure_unit]
    exact (writes_query scope query).bracketed
  | .list items => (writes_items scope items).bracketed
termination_by structural x => x

private theorem writes_items (scope : Option TableRef) : ∀ items,
    Writes schema lookup scope (writeItems schema items) (Sql.emitItems lookup scope items)
  | [] => .pure ()
  | [e] => writes_operand scope e
  | e :: next :: rest =>
    (writes_operand scope e).next ((Writes.text _).next (writes_items scope (next :: rest)))
termination_by structural x => x

theorem writes_predicate (scope : Option TableRef) : ∀ p,
    Writes schema lookup scope (writePredicate schema p) (Sql.emitPredicate lookup scope p)
  | .binary left op right => (writes_operand scope left).next (.spaced op.sql (writes_operand scope right))
  | .prefixed op operand => by
    rw [writePredicate, write_write]
    exact (Writes.text _).next (writes_operand scope operand)
  | .raw r => .raw r
termination_by structural x => x

theorem writes_conjunction (scope : Option TableRef) (quantified : Bool) {first : Build Unit}
    {e : Emission Unit} (he : Writes schema lookup scope first e) : ∀ ps,
    Writes schema lookup scope (writeConjunction schema quantified first ps)
      (joined lookup scope quantified e ps)
  | [] => he
  | [p] => .opened ((writes_asOperand scope he quantified).next
      (.spaced BinaryOp.and.sql (writes_asOperand scope (writes_predicate scope p) p.isQuantified)))
  | p :: next :: rest => by
    have hfirst := (writes_asOperand scope he quantified).next
      (.spaced BinaryOp.and.sql (writes_asOperand scope (writes_predicate scope p) p.isQuantified))
    have hrest := writes_conjunction scope false hfirst (next :: rest)
    rw [joined, if_neg Bool.false_ne_true, bracketed_bind] at hrest
    have hopen : String.ofList (List.replicate rest.length '(') ++ "(" =
        String.ofList (List.replicate (next :: rest).length '(') := by
      rw [List.length_cons, List.replicate_succ', String.ofList_append]
    have hmerged := hrest.merge
    rw [hopen] at hmerged
    simp only [bind_assoc] at hmerged
    exact hmerged
termination_by structural x => x

theorem writes_conditions (scope : Option TableRef) (keyword : String) : ∀ ps,
    Writes schema lookup scope (writeConditions schema keyword ps) (Sql.emitConditions lookup scope keyword ps)
  | [] => .pure ()
  | [p] => .spaced keyword (writes_predicate scope p)
  | p :: next :: rest =>
    (Writes.spaced keyword
      (writes_conjunction scope p.isQuantified (writes_predicate scope p) (next :: rest))).merge
termination_by structural x => x

private theorem writes_selectable (scope : Option TableRef) : ∀ item,
    Writes schema lookup scope (writeSelectable schema item) (Sql.emitSelectable lookup scope item)
  | .column c => writes_aliasedColumn scope c
  | .aggregate a => writes_aliasedAggregate scope a
  | .raw r => .raw r
  | .subquery ⟨query, aliasName⟩ => ((writes_query scope query).bracketed).aliased aliasName
termination_by structural x => x

theorem writes_selectList (scope : Option TableRef) : ∀ items,
    Writes schema lookup scope (writeSelectList schema items) (Sql.emitSelectList lookup scope items)
  | [] => .text "*"
  | [item] => writes_selectable scope item
  | item :: next :: rest =>
    (writes_selectable scope item).next ((Writes.text _).next (writes_selectList scope (next :: rest)))
termination_by structural x => x

private theorem writes_source (scope : Option TableRef) : ∀ source,
    Writes schema lookup scope (writeSource schema source) (Sql.emitSource lookup scope source)
  | .table t => (Writes.model t).bind fun m => (Writes.name m.table).aliased t.aliasName
  | .join kind left right (.on conditions) =>
    (writes_source scope left).next
      (.spaced kind.sql ((writes_source scope right).next (writes_conditions scope "ON" conditions)))
  | .join kind left right (.using fields) =>
    (writes_source scope left).next (.spaced kind.sql ((writes_source scope right).next
      ((Writes.text _).next ((Writes.separated (fun field =>
        (writes_resolve scope field _).bind fun (_, column) => .name column) fields).next (.text _)))))
  | .subquery ⟨query, aliasName⟩ => ((writes_query scope query).bracketed).aliased aliasName
termination_by structural x => x

theorem writes_query (scope : Option TableRef) : ∀ q,
    Writes schema lookup scope (writeQuery schema q) (Sql.emitQuery lookup q)
  | ⟨source, columns, distinct, conditions, groupBy, having, orderBy, limit, offset⟩ => by
    rw [writeQuery, Sql.emitQuery]
    split
    · exact .fail _
    refine Writes.within ?_
    have hbody := (writes_selectList (some source) columns).next ((Writes.text " FROM ").next
      ((writes_source (some source) source).next ((writes_conditions (some source) "WHERE" conditions).next
        ((writes_clause (some source) " GROUP BY " (writes_column (some source)) groupBy).next
          ((writes_conditions (some source) "HAVING" having).next
            ((writes_clause (some source) " ORDER BY " (writes_orderItem (some source)) orderBy).next
              ((writes_bound (some source) " LIMIT " limit).next
                (writes_bound (some source) " OFFSET " offset))))))))
    cases distinct with
    | false => exact (Writes.text _).next hbody
    | true =>
      simp only [if_true, write_write]
      exact (Writes.text _).next hbody
termination_by structural x => x

end

private theorem writes_expr : ∀ e, Writes schema lookup scope (writeExpr schema e) (Sql.emitExpr lookup scope e)
  | .predicate p => writes_predicate scope p
  | .column c => writes_column scope c
  | .value v => .bound v
  | .aggregate a => writes_aggregate scope a
  | .raw r => .raw r
  | .subquery s => writes_operand scope (.subquery s)
  | .list items => (writes_items scope items).bracketed

def Call.emission (lookup : TypeId → Except Error Model) (scope : Option TableRef) : Call → Emission Unit
  | expr e => Sql.emitExpr lookup scope e
  | operand e => Sql.emitOperand lookup scope e
  | predicate p => Sql.emitPredicate lookup scope p
  | conditions keyword ps => Sql.emitConditions lookup scope keyword ps
  | column c false => Sql.emitColumn lookup scope c
  | column c true => Sql.emitSelectable lookup scope (.column c)
  | source t => Sql.emitSource lookup scope t
  | query q => Sql.emitQuery lookup q

private theorem Call.writes : ∀ call : Call,
    Writes schema lookup scope (call.walk schema) (call.emission lookup scope)
  | expr e => writes_expr scope e
  | operand e => writes_operand scope e
  | predicate p => writes_predicate scope p
  | conditions keyword ps => writes_conditions scope keyword ps
  | column c false => writes_column scope c
  | column c true => writes_selectable scope (.column c)
  | source t => writes_source scope t
  | query q => writes_query scope q

end

/-- Whatever its outcome, a call leaves what was written and the source in scope, and its outcome and what
it adds are the same for all builders that agree in dialect, registry, scope and number of arguments. -/
theorem Call.frame (schema : Schema) (call : Call) (dialect : Dialect) (registry : Registry)
    (scope : Option TableRef) (count : Nat) :
    ∃ result registry' text added, ∀ sql args, args.length = count →
      (call.walk schema).run ⟨dialect, registry, sql, args, scope⟩ =
        (result, ⟨dialect, registry', sql ++ text, args ++ added, scope⟩) := by
  let e := call.emission (registry.view schema) scope
  refine ⟨e.outcome, registry.consultAll schema e.consulted, dialect.spelling.text count e.pieces,
    argsOf e.pieces, fun sql args hcount => ?_⟩
  subst hcount
  exact call.writes scope ⟨dialect, registry, sql, args, scope⟩ rfl rfl

/-- A call that fails inside a query inside a query, behind text and an argument that were there before. -/
theorem Call.frame_failing :
    let m : Model := ⟨"notes", .named "Note", [⟨"score", "score", 0, 8, ⟨.integer .i64⟩, 0⟩]⟩
    let r : Registry := Registry.empty.insert (.named "Note") m
    let note : TableRef := .table ⟨.named "Note", none⟩
    let unknown : Query := { Query.all note with conditions := [.prefixed .not (.column (.named "size"))] }
    let outer : Query := { Query.all note with
      conditions := [.binary (.value .null) .eq (.value .null), .existsRow ⟨unknown, none⟩] }
    let b : Builder := ⟨.postgres, r, "a = $1 AND ", [.null], some note⟩
    let after := ((Call.predicate (.existsRow ⟨outer, none⟩)).walk fun _ => .other).run b
    after.1 = .error (.invalidField "size") ∧ after.2.scope = some note ∧
      after.2.sql = "a = $1 AND EXISTS (SELECT * FROM \"notes\" WHERE ($2 = $3) AND " ++
        "(EXISTS (SELECT * FROM \"notes\" WHERE NOT " ∧
      after.2.args = [.null, .null, .null] := by
  intro m r note unknown outer b after
  obtain ⟨result, registry', text, added, h⟩ :=
    Call.frame (fun _ => .other) (.predicate (.existsRow ⟨outer, none⟩)) .postgres r (some note) 1
  have hafter : after = (result, ⟨.postgres, registry', b.sql ++ text, b.args ++ added, some note⟩) :=
    h b.sql b.args rfl
  exact ⟨rfl, by rw [hafter], by decide +kernel, rfl⟩

end Builder

end EntitySql
