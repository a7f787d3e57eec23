import EntitySql.Model.Registry
import EntitySql.Proofs.Sql.Composition

namespace EntitySql

def Expr.item? (e : Expr) : Option Selectable :=
  match e.selectable with
  | .ok item => some item
  | .error _ => none

/-- The message with which an expression is refused in a select list. -/
def Expr.refusal? (e : Expr) : Option String :=
  match e.selectable with
  | .ok _ => none
  | .error err => some err.message

namespace Selection

/-- A call on a selection under construction. -/
inductive Call where
  | fromSource (source : TableRef)
  | select (items : List Selectable)
  | selectExpr (exprs : List Expr)
  | distinct
  | filterBy (conditions : List Predicate)
  | groupBy (columns : List Column)
  | having (conditions : List Predicate)
  | orderBy (items : List OrderItem)
  | limit (n : Integer .u64)
  | offset (n : Integer .u64)

def call (s : Selection) : Call → Selection
  | .fromSource source => s.fromSource source
  | .select items => s.select items
  | .selectExpr exprs => exprs.foldl selectExpr s
  | .distinct => s.distinct
  | .filterBy conditions => s.filterBy conditions
  | .groupBy columns => s.groupBy columns
  | .having conditions => s.having conditions
  | .orderBy items => s.orderBy items
  | .limit n => s.limit n
  | .offset n => s.offset n

def run (entity : TypeId) (calls : List Call) : Selection := calls.foldl call (all entity)

def Call.refusals : Call → List String
  | .selectExpr exprs => exprs.filterMap Expr.refusal?
  | _ => []

def Call.kept : Call → Call
  | .selectExpr exprs => .selectExpr (exprs.filter fun e => e.refusal?.isNone)
  | k => k

private theorem refused_selectExpr (s : Selection) (e : Expr) :
    (s.selectExpr e).refused = (s.refused <|> e.refusal?) := by
  unfold selectExpr Expr.refusal?
  cases e.selectable with
  | ok item => simp [select]
  | error err => rfl

private theorem query_selectExpr (s : Selection) (e : Expr) :
    (s.selectExpr e).query = { s.query with columns := s.query.columns ++ e.item?.toList } := by
  unfold selectExpr Expr.item?
  cases e.selectable with
  | ok item => rfl
  | error err =>
    cases s.query
    simp

private theorem refused_selectExprs (s : Selection) (exprs : List Expr) :
    (exprs.foldl selectExpr s).refused = (s.refused <|> (exprs.filterMap Expr.refusal?).head?) := by
  induction exprs generalizing s with
  | nil => simp
  | cons e rest ih =>
    rw [List.foldl_cons, ih, refused_selectExpr, List.filterMap_cons]
    cases e.refusal? with
    | none => simp
    | some message => cases s.refused <;> simp

private theorem query_selectExprs (s : Selection) (exprs : List Expr) :
    (exprs.foldl selectExpr s).query =
      { s.query with columns := s.query.columns ++ exprs.filterMap Expr.item? } := by
  induction exprs generalizing s with
  | nil =>
    cases hq : s.query
    simp [hq]
  | cons e rest ih =>
    rw [List.foldl_cons, ih, query_selectExpr, List.filterMap_cons]
    cases e.item? with
    | none => simp
    | some item => simp

/-- One call remembers its first refusal, unless there is an earlier one. -/
theorem refused_call (s : Selection) (k : Call) :
    (s.call k).refused = (s.refused <|> k.refusals.head?) := by
  cases k with
  | selectExpr exprs => exact refused_selectExprs s exprs
  | _ => simp [call, Call.refusals, fromSource, select, distinct, filterBy, groupBy, having, orderBy,
      limit, offset]

/-- Calls in a row remember the first refusal of all. -/
theorem refused_run (entity : TypeId) (calls : List Call) :
    (run entity calls).refused = (calls.flatMap Call.refusals).head? := by
  have hfrom (s : Selection) :
      (calls.foldl call s).refused = (s.refused <|> (calls.flatMap Call.refusals).head?) := by
    induction calls generalizing s with
    | nil => simp
    | cons k rest ih =>
      rw [List.foldl_cons, ih, refused_call, List.flatMap_cons]
      cases s.refused with
      | some message => simp
      | none => cases k.refusals <;> simp
  exact hfrom (all entity)

private theorem filterMap_item?_kept (exprs : List Expr) :
    (exprs.filter fun e => e.refusal?.isNone).filterMap Expr.item? = exprs.filterMap Expr.item? := by
  rw [List.filterMap_filter]
  refine congrArg (fun f => exprs.filterMap f) (funext fun e => ?_)
  unfold Expr.refusal? Expr.item?
  cases e.selectable <;> rfl

/-- The query after a call is the query after what the call keeps. -/
theorem query_call_kept {s t : Selection} (h : s.query = t.query) (k : Call) :
    (s.call k.kept).query = (t.call k).query := by
  cases k with
  | selectExpr exprs =>
    rw [Call.kept, call, call, query_selectExprs, query_selectExprs, filterMap_item?_kept, h]
  | _ => simp [call, Call.kept, fromSource, select, distinct, filterBy, groupBy, having, orderBy, limit,
      offset, h]

private theorem query_run_kept (entity : TypeId) (calls : List Call) :
    (run entity (calls.map Call.kept)).query = (run entity calls).query := by
  have hfrom {s t : Selection} (h : s.query = t.query) :
      ((calls.map Call.kept).foldl call s).query = (calls.foldl call t).query := by
    induction calls generalizing s t with
    | nil => exact h
    | cons k rest ih => exact ih (query_call_kept h k)
  exact hfrom rfl

end Selection

private theorem Tag.invalidTag_of_ofSegments {err : Error} : ∀ {segments : List (List Char)} {tag : Tag},
    Tag.ofSegments tag segments = .error err → ∃ detail, err = .invalidTag detail
  | [], tag, h => by cases h
  | segment :: rest, tag, h => by
    rw [Tag.ofSegments] at h
    split at h
    · exact invalidTag_of_ofSegments h
    · cases h
      exact ⟨_, rfl⟩

/-- The errors of models that cannot be read off metadata. -/
def Error.OfModel (err : Error) : Prop := err = .invalidModelType ∨ ∃ detail, err = .invalidTag detail

namespace Model

private theorem ofModel_columnOf {info : FieldInfo} {err : Error} (h : columnOf info = .error err) :
    err.OfModel := by
  unfold columnOf at h
  split at h
  · cases h
  · split at h
    · rename_i hparse
      cases h
      exact .inr (Tag.invalidTag_of_ofSegments hparse)
    · cases h

private theorem ofModel_mapFields {size : Nat} {err : Error} : ∀ {infos : List FieldInfo} {before : List Field},
    mapFields size before infos = .error err → err.OfModel
  | [], before, h => by cases h
  | info :: rest, before, h => by
    rw [mapFields] at h
    split at h
    · cases h
      exact .inl rfl
    split at h
    · rename_i hcolumn
      cases h
      exact ofModel_columnOf hcolumn
    split at h
    · cases h
      exact .inr ⟨_, rfl⟩
    · exact ofModel_mapFields h

private theorem ofModel_ofStruct {info : StructInfo} {err : Error} (h : ofStruct info = .error err) :
    err.OfModel := by
  unfold ofStruct at h
  split at h
  · rename_i hfields
    cases h
    exact ofModel_mapFields hfields
  · cases h

private theorem ofModel_parse {info : TypeInfo} {err : Error} (h : parse info = .error err) : err.OfModel := by
  unfold parse at h
  split at h
  · exact ofModel_ofStruct h
  · exact ofModel_ofStruct h
  · cases h
    exact .inl rfl

end Model

/-- A registry fails to give a model only for the metadata of the type. -/
theorem Registry.ofModel_view {r : Registry} {schema : Schema} {t : TypeId} {err : Error}
    (h : r.view schema t = .error err) : err.OfModel := by
  unfold view at h
  split at h
  · cases h
  unfold Schema.parse at h
  split at h
  · split at h
    · exact Model.ofModel_ofStruct h
    · cases h
      exact .inl rfl
  · exact Model.ofModel_parse h

private theorem Emission.composed_fails {lookup : TypeId → Except Error Model} {E : Error → Prop}
    (hE : ∀ err, Sql.Failure lookup err → E err) :
    Composed lookup E fun e => ∀ err, e.outcome = .error err → E err where
  failure {err} hf := hE err hf
  quiet he := he.outcome
  piece p hp := fun err h => by cases h
  afterQuiet {α e f} he hf := by
    rw [bind_def]
    cases ho : e.outcome with
    | error err =>
      rw [andThen_error ho]
      intro err' h'
      cases h'
      exact he.outcome err ho
    | ok a =>
      rw [andThen_ok ho]
      exact hf a
  afterText hs hn := hn
  beforeLed {e next} he hn hled := by
    rw [bind_def]
    cases ho : e.outcome with
    | error err =>
      rw [andThen_error ho]
      intro err' h'
      cases h'
      exact he err ho
    | ok a =>
      rw [andThen_ok ho]
      exact hn

namespace Compiler

variable {c : Compiler} {r : Registry} {schema : Schema}

private theorem ne_unsupported_of_failure (hl : c.lookup = r.view schema) {err : Error} (h : c.Failure err)
    (message : String) : err ≠ .unsupportedExpression message := by
  rintro rfl
  cases h with
  | sql hsql =>
    cases hsql with
    | model hm =>
      rw [hl] at hm
      rcases Registry.ofModel_view hm with h | ⟨detail, h⟩ <;> cases h

/-- No expression is refused while a command is walked over: a command fails for one only if it is a
selection that remembers it. -/
theorem build_eq_unsupported_iff (hl : c.lookup = r.view schema) (cmd : Command)
    (hd : cmd.onConflict?.isSome → c.dialect ∈ Dialect.given) (message : String) :
    c.build cmd = .error (.unsupportedExpression message) ↔
      ∃ s, cmd = .select s ∧ s.refused = some message := by
  rw [build_eq_error_iff]
  constructor
  · intro ho
    -- Everything else that a walk fails with is another error.
    let E (err : Error) : Prop :=
      ∀ m, err = .unsupportedExpression m → ∃ s, cmd = .select s ∧ s.refused = some m
    have hfailure (err : Error) (h : c.Failure err) : E err :=
      fun m hm => absurd hm (ne_unsupported_of_failure hl h m)
    have hwalk := composed_emit (Emission.composed_fails fun err h => hfailure err (.sql h)) hfailure cmd
      hd fun s m hs hm m' h => by
        cases h
        exact ⟨s, hs, hm⟩
    exact hwalk _ ho message rfl
  · rintro ⟨s, rfl, hs⟩
    change (c.emitSelection s).outcome = _
    rw [emitSelection, hs]
    rfl

/-- A selection that is built fails for its first refused expression. As part of another statement it is
the selection without its refused expressions, and nothing fails there for them. -/
theorem build_of_calls (hl : c.lookup = r.view schema) (entity : TypeId) (calls : List Selection.Call) :
    (∀ message, c.build (.select (Selection.run entity calls)) =
        .error (.unsupportedExpression message) ↔
      (calls.flatMap Selection.Call.refusals).head? = some message) ∧
    (Selection.run entity calls).asSubQuery =
      (Selection.run entity (calls.map Selection.Call.kept)).asSubQuery ∧
    ∀ cmd, (cmd.onConflict?.isSome → c.dialect ∈ Dialect.given) → ∀ message,
      (c.build cmd = .error (.unsupportedExpression message) ↔
        ∃ s, cmd = .select s ∧ s.refused = some message) := by
  refine ⟨fun message => ?_, ?_, fun cmd hd message => build_eq_unsupported_iff hl cmd hd message⟩
  · have hselect := build_eq_unsupported_iff hl (.select (Selection.run entity calls))
      (fun h => by cases h) message
    rw [hselect, ← Selection.refused_run entity calls]
    constructor
    · rintro ⟨s, hs, hrefused⟩
      cases hs
      exact hrefused
    · intro hrefused
      exact ⟨_, rfl, hrefused⟩
  · rw [Selection.asSubQuery, Selection.asSubQuery, Selection.query_run_kept]

/-- A value in a select list: the selection fails, the condition on its rows does not. -/
theorem build_of_calls_value :
    let m : Model := ⟨"notes", .named "Note", [⟨"score", "score", 0, 8, ⟨.integer .i64⟩, 0⟩]⟩
    let r : Registry := Registry.empty.insert (.named "Note") m
    let c : Compiler := ⟨.standard, .byOffset, r.view fun _ => .other⟩
    let inner : Selection := Selection.run (.named "Note") [.distinct, .selectExpr [.value .null]]
    let outer : Command :=
      .select ((Selection.all (.named "Note")).filterBy [.existsRow inner.asSubQuery])
    (∃ message, c.build (.select inner) = .error (.unsupportedExpression message)) ∧
      ∀ message, c.build outer ≠ .error (.unsupportedExpression message) := by
  intro m r c inner outer
  have hl : c.lookup = r.view fun _ => .other := rfl
  obtain ⟨hself, -, hall⟩ :=
    build_of_calls hl (.named "Note") [.distinct, .selectExpr [.value .null]]
  refine ⟨⟨_, (hself _).mpr rfl⟩, fun message h => ?_⟩
  obtain ⟨s, hs, hrefused⟩ := (hall outer (fun h => by cases h) message).mp h
  have hnone : s.refused = none := by rw [← Command.select.inj hs]; rfl
  rw [hnone] at hrefused
  cases hrefused

/-- A selection that fails by itself, and a statement that selects from it all the same: the refused
value has left all columns behind. -/
theorem build_of_refused_subQuery :
    let m : Model := ⟨"test_model", .named "TestModel", [⟨"id", "id", 0, 8, ⟨.integer .i64⟩, 0⟩]⟩
    let c : Compiler := ⟨.standard, .byOffset, (Registry.empty.insert (.named "TestModel") m).view
      fun _ => .other⟩
    let inner : Selection :=
      Selection.run (.named "TestModel") [.selectExpr [.value (.int ⟨1, by decide, by decide⟩)]]
    c.build (.select inner) = .error (.unsupportedExpression
        "unsupported expression: value int is not selectable") ∧
      c.build (.select ((Selection.all (.named "TestModel")).filterBy [.existsRow inner.asSubQuery])) =
        .ok ⟨"SELECT * FROM \"test_model\" WHERE EXISTS (SELECT * FROM \"test_model\");", []⟩ := by
  intro m c inner
  have hsql : c.dialect.spelling.statement
      [.text "SELECT ", .text "*", .text " FROM ", .name "test_model", .text " WHERE ",
        .text "EXISTS ", .text "(", .text "SELECT ", .text "*", .text " FROM ", .name "test_model",
        .text ")"] =
      ⟨"SELECT * FROM \"test_model\" WHERE EXISTS (SELECT * FROM \"test_model\");", []⟩ := by
    decide
  refine ⟨rfl, ?_⟩
  rw [← hsql]
  rfl

end Compiler

end EntitySql
