import EntitySql.Proofs.Model.Reachable
import EntitySql.Proofs.Sql.Reader.Grammar

namespace EntitySql

mutual

/-- Operands of conditions over one table: its columns, aggregates of them, values and conditions. -/
inductive Expr.Combined (m : Model) : Expr → Prop where
  | column {field : String} (hf : (m.field? field).isSome) : Expr.Combined m (.column (.named field))
  | value (v : Value) : Expr.Combined m (.value v)
  | aggregate (func : AggregateFunction) {field : String} (hf : (m.field? field).isSome) :
    Expr.Combined m (.aggregate ⟨func, .named field, none⟩)
  | condition {p : Predicate} (hp : Predicate.Combined m p) : Expr.Combined m (.predicate p)

/-- Conditions over one table that the combinators build without fragments and subqueries. -/
inductive Predicate.Combined (m : Model) : Predicate → Prop where
  | column {field : String} {op : BinaryOp} {e : Expr} (hf : (m.field? field).isSome)
    (hop : op ∈ [.eq, .ne, .gt, .ge, .lt, .le, .like]) (he : Expr.Combined m e) :
    Predicate.Combined m ((Column.named field).compare op e)
  | aggregate {func : AggregateFunction} {field : String} {op : BinaryOp} {e : Expr}
    (hf : (m.field? field).isSome) (hop : op ∈ [.eq, .ne, .gt, .ge, .lt, .le])
    (he : Expr.Combined m e) : Predicate.Combined m (Aggregate.compare ⟨func, .named field, none⟩ op e)
  | inList {field : String} {items : List Expr} (hf : (m.field? field).isSome) (hne : items ≠ [])
    (hi : ∀ e ∈ items, Expr.Combined m e) : Predicate.Combined m ((Column.named field).inList items)
  | and {p q : Predicate} (hp : Predicate.Combined m p) (hq : Predicate.Combined m q) :
    Predicate.Combined m (p.and q)
  | or {p q : Predicate} (hp : Predicate.Combined m p) (hq : Predicate.Combined m q) :
    Predicate.Combined m (p.or q)
  | not {p : Predicate} (hp : Predicate.Combined m p) : Predicate.Combined m p.not

end

private theorem Predicate.Combined.not_quantified {m : Model} {p : Predicate} (hp : p.Combined m) :
    p.isQuantified = false := by
  cases hp with
  | inList hf hne hi =>
    rename_i field items
    cases items with
    | nil => exact absurd rfl hne
    | cons e rest => rfl
  | _ => rfl

namespace Reader

open Emission

variable {s : Spelling} {m : Model}

/-- Pieces whose text is read as tokens, however many arguments stand before them. -/
def Spelled (s : Spelling) (ps : List Piece) (ts : List Token) : Prop :=
  ∀ k, Lexes s.quote (s.text k ps).toList ts

private theorem spelled_nil : Spelled s [] [] := fun _ => Opens.nil.lexes

private theorem spelled_after {t : String} {ps : List Piece} {mid ts : List Token}
    (ht : Opens s.quote t.toList mid) (hp : Spelled s ps ts) :
    Spelled s (.text t :: ps) (mid ++ ts) := by
  intro k
  rw [Spelling.text, String.toList_append]
  exact ht.append (hp k)

/-- A text that no token goes on into keeps the tokens on both sides apart. -/
theorem spelled_between {t : String} {ps qs : List Piece} {ts mid us : List Token} {c : Char}
    {cs : List Char} (hp : Spelled s ps ts) (ht : Opens s.quote t.toList mid)
    (hstart : t.toList = c :: cs) (hc : isDelimiter c = true) (hq : Spelled s qs us) :
    Spelled s (ps ++ .text t :: qs) (ts ++ (mid ++ us)) := by
  intro k
  have hrest := spelled_after ht hq (k + (argsOf ps).length)
  have hhead : (s.text (k + (argsOf ps).length) (.text t :: qs)).toList =
      c :: (cs ++ (s.text (k + (argsOf ps).length) qs).toList) := by
    rw [Spelling.text, String.toList_append, hstart, List.cons_append]
  rw [Spelling.text_append, String.toList_append]
  refine (hp k).append hrest ?_ ?_
  · intro d hd
    rw [hhead] at hd
    cases hd
    exact hc
  · rw [hhead]
    exact List.cons_ne_nil _ _

/-- A walk that writes what is read as an operand. -/
structure ReadsAs (s : Spelling) (m : Model) (em : Emission Unit) (e : Expr) : Prop where
  outcome : em.outcome = .ok ()
  tokens : ∃ ts, Spelled s em.pieces ts ∧ Reads m ts (argsOf em.pieces) e

/-- A walk that writes what is read as a condition. -/
structure StandsAs (s : Spelling) (m : Model) (em : Emission Unit) (p : Predicate) : Prop where
  outcome : em.outcome = .ok ()
  tokens : ∃ ts, Spelled s em.pieces ts ∧ Stands m ts (argsOf em.pieces) p

private theorem pieces_followed {em : Emission Unit} (next : Emission Unit) (h : em.outcome = .ok ()) :
    (em >>= fun _ => next).pieces = em.pieces ++ next.pieces ∧
      (em >>= fun _ => next).outcome = next.outcome := by
  rw [bind_def, andThen_ok h]
  exact ⟨rfl, rfl⟩

private theorem pieces_between {em : Emission Unit} (next : Emission Unit) (h : em.outcome = .ok ())
    (t : String) :
    (em >>= fun _ => Emission.text t >>= fun _ => next).pieces = em.pieces ++ .text t :: next.pieces ∧
      (em >>= fun _ => Emission.text t >>= fun _ => next).outcome = next.outcome :=
  pieces_followed _ h

private theorem argsOf_between (ps qs : List Piece) (t : String) :
    argsOf (ps ++ .text t :: qs) = argsOf ps ++ argsOf qs := by
  simp [argsOf, Piece.args]

private theorem standsAs_binary {left right : Emission Unit} {l r : Expr} {op : BinaryOp} (hop : op ≠ .isIn)
    (hl : ReadsAs s m left l) (hr : ReadsAs s m right r) :
    StandsAs s m (left >>= fun _ => Emission.text (" " ++ op.sql ++ " ") >>= fun _ => right)
      (.binary l op r) := by
  obtain ⟨ts, hts, hreadl⟩ := hl.tokens
  obtain ⟨us, hus, hreadr⟩ := hr.tokens
  obtain ⟨hpieces, houtcome⟩ := pieces_between right hl.outcome (" " ++ op.sql ++ " ")
  have hstart : (" " ++ op.sql ++ " ").toList = ' ' :: (op.sql ++ " ").toList := by simp
  refine ⟨by rw [houtcome]; exact hr.outcome, ts ++ ([.binary op] ++ us), ?_, ?_⟩
  · rw [hpieces]
    exact spelled_between hts (opens_binary op) hstart rfl hus
  · rw [hpieces, argsOf_between]
    exact stands_binary hop hreadl hreadr

private theorem standsAs_not {em : Emission Unit} {e : Expr} (he : ReadsAs s m em e) :
    StandsAs s m (Emission.text (PrefixOp.not.sql ++ " ") >>= fun _ => em) (.prefixed .not e) := by
  obtain ⟨ts, hts, hread⟩ := he.tokens
  exact ⟨he.outcome, .not :: ts, spelled_after opens_not hts, stands_not hread⟩

private theorem toList_opening : "(".toList = ['('] := by simp

private theorem toList_closing : ")".toList = [')'] := by simp

private theorem toList_comma : ", ".toList = [',', ' '] := by simp

private theorem spelled_bracketed {ps : List Piece} {ts : List Token} (hp : Spelled s ps ts) :
    Spelled s (.text "(" :: (ps ++ [.text ")"])) (.opening :: (ts ++ [.closing])) := by
  have hopen : Opens s.quote "(".toList [.opening] := toList_opening ▸ opens_opening
  have hclose : Opens s.quote ")".toList [.closing] := toList_closing ▸ opens_closing
  exact spelled_after hopen (spelled_between hp hclose toList_closing rfl spelled_nil)

private theorem pieces_bracketed {em : Emission Unit} (h : em.outcome = .ok ()) :
    em.bracketed.pieces = .text "(" :: (em.pieces ++ [.text ")"]) ∧ em.bracketed.outcome = .ok () := by
  obtain ⟨hpieces, houtcome⟩ := pieces_followed (Emission.text ")") h
  exact ⟨congrArg (Piece.text "(" :: ·) hpieces, houtcome⟩

private theorem argsOf_bracketed (ps : List Piece) :
    argsOf (.text "(" :: (ps ++ [.text ")"])) = argsOf ps := by
  simp [argsOf, Piece.args]

private theorem readsAs_bracketed {em : Emission Unit} {p : Predicate} (hp : StandsAs s m em p) :
    ReadsAs s m em.bracketed (.predicate p) := by
  obtain ⟨ts, hts, hstand⟩ := hp.tokens
  obtain ⟨hpieces, houtcome⟩ := pieces_bracketed hp.outcome
  refine ⟨houtcome, .opening :: (ts ++ [.closing]), ?_, ?_⟩
  · rw [hpieces]
    exact spelled_bracketed hts
  · rw [hpieces, argsOf_bracketed]
    exact reads_group hstand

/-- A walk that writes what is read as the items of a list. -/
structure ItemsAs (s : Spelling) (m : Model) (em : Emission Unit) (items : List Expr) : Prop where
  outcome : em.outcome = .ok ()
  tokens : ∃ ts, Spelled s em.pieces ts ∧ ReadsItems m ts (argsOf em.pieces) items

private theorem itemsAs {lookup : TypeId → Except Error Model} {scope : Option TableRef} : ∀ items,
    items ≠ [] → (∀ e ∈ items, ReadsAs s m (Sql.emitOperand lookup scope e) e) →
    ItemsAs s m (Sql.emitItems lookup scope items) items
  | [], hne, _ => absurd rfl hne
  | [e], _, hall => by
    have he := hall e (by simp)
    obtain ⟨ts, hts, hread⟩ := he.tokens
    exact ⟨he.outcome, ts, hts, readsItems_one hread⟩
  | e :: next :: rest, _, hall => by
    have he := hall e (by simp)
    have hrest := itemsAs (next :: rest) (by simp) fun d hd => hall d (List.mem_cons_of_mem e hd)
    obtain ⟨ts, hts, hread⟩ := he.tokens
    obtain ⟨us, hus, hitems⟩ := hrest.tokens
    obtain ⟨hpieces, houtcome⟩ := pieces_between
      (Sql.emitItems lookup scope (next :: rest)) he.outcome ", "
    have hcomma : Opens s.quote ", ".toList [.comma] := toList_comma ▸ opens_comma
    rw [Sql.emitItems]
    refine ⟨by rw [houtcome]; exact hrest.outcome, ts ++ ([.comma] ++ us), ?_, ?_⟩
    · rw [hpieces]
      exact spelled_between hts hcomma toList_comma rfl hus
    · rw [hpieces, argsOf_between]
      exact readsItems_cons hread hitems

private theorem standsAs_isIn {left list : Emission Unit} {l : Expr} {items : List Expr}
    (hl : ReadsAs s m left l) (hi : ItemsAs s m list items) :
    StandsAs s m
      (left >>= fun _ => Emission.text (" " ++ BinaryOp.isIn.sql ++ " ") >>= fun _ => list.bracketed)
      (.binary l .isIn (.list items)) := by
  obtain ⟨ts, hts, hreadl⟩ := hl.tokens
  obtain ⟨us, hus, hreadi⟩ := hi.tokens
  obtain ⟨hlist, hend⟩ := pieces_bracketed hi.outcome
  obtain ⟨hpieces, houtcome⟩ := pieces_between list.bracketed hl.outcome
    (" " ++ BinaryOp.isIn.sql ++ " ")
  have hstart : (" " ++ BinaryOp.isIn.sql ++ " ").toList = ' ' :: (BinaryOp.isIn.sql ++ " ").toList := by
    simp
  refine ⟨by rw [houtcome]; exact hend,
    ts ++ ([.binary .isIn] ++ .opening :: (us ++ [.closing])), ?_, ?_⟩
  · rw [hpieces, hlist]
    exact spelled_between hts (opens_binary .isIn) hstart rfl (spelled_bracketed hus)
  · rw [hpieces, hlist, argsOf_between, argsOf_bracketed]
    exact stands_isIn hreadl hreadi

private theorem standsAs_inList {lookup : TypeId → Except Error Model} {scope : Option TableRef} {c : Column}
    {items : List Expr} (hne : items ≠ [])
    (hc : ReadsAs s m (Sql.emitOperand lookup scope (.column c)) (.column c))
    (hi : ∀ e ∈ items, ReadsAs s m (Sql.emitOperand lookup scope e) e) :
    StandsAs s m (Sql.emitPredicate lookup scope (c.inList items)) (c.inList items) := by
  have hitems := itemsAs items hne hi
  cases items with
  | nil => exact absurd rfl hne
  | cons e rest => exact standsAs_isIn hc hitems

private theorem emitColumn_named {lookup : TypeId → Except Error Model} {t : TypeId} (hm : lookup t = .ok m)
    {field : String} {f : Field} (hf : m.field? field = some f) :
    Sql.emitColumn lookup (Compiler.scopeOf t) (.named field) = ⟨[.name f.column], [t], .ok ()⟩ := by
  have hmodel : Emission.model lookup t = ⟨[], [t], .ok m⟩ := by rw [Emission.model, hm]
  have hfield : m.requireField field = .ok f := by rw [Model.requireField, hf]
  have hresolve : Resolution.ofColumn lookup (Compiler.scopeOf t) (.named field) =
      ⟨[], [t], .ok (none, f.column)⟩ := by
    change (Emission.model lookup t >>= fun m => Emission.ofExcept (m.requireField field) >>= fun f =>
      Pure.pure ((none : Option String), f.column)) = _
    rw [hmodel, bind_def, andThen_ok rfl, hfield]
    rfl
  rw [Sql.emitColumn, hresolve]
  rfl

section

variable {d : Dialect} (hd : d ∈ Dialect.given) {lookup : TypeId → Except Error Model} {t : TypeId}
  (hm : lookup t = .ok m) (ha : Model.Apart m.fields)
  (hquote : ∀ f ∈ m.fields, d.spelling.quote ∉ f.column.toList)
include hd hquote

private theorem spelled_name {field : String} {f : Field} (hf : m.field? field = some f) :
    Spelled d.spelling [.name f.column] [.name f.column] := by
  intro k
  have hmem : f ∈ m.fields := List.mem_reverse.mp (List.mem_of_find?_eq_some hf)
  rw [Spelling.text, Spelling.text, String.append_empty]
  exact lexes_name (isQuote_of_given hd) (hquote f hmem)

include hm ha

private theorem readsAs_column {field : String} (hf : (m.field? field).isSome) :
    ReadsAs d.spelling m (Sql.emitOperand lookup (Compiler.scopeOf t) (.column (.named field)))
      (.column (.named field)) := by
  obtain ⟨f, hf⟩ := Option.isSome_iff_exists.mp hf
  have hread := reads_column (Model.column?_column ha hf)
  rw [Model.name_of_field? hf] at hread
  rw [Sql.emitOperand, emitColumn_named hm hf]
  exact ⟨rfl, _, spelled_name hd hquote hf, hread⟩

private theorem readsAs_aggregate (func : AggregateFunction) {field : String}
    (hf : (m.field? field).isSome) :
    ReadsAs d.spelling m
      (Sql.emitOperand lookup (Compiler.scopeOf t) (.aggregate ⟨func, .named field, none⟩))
      (.aggregate ⟨func, .named field, none⟩) := by
  obtain ⟨f, hf⟩ := Option.isSome_iff_exists.mp hf
  have hread := reads_aggregate func (Model.column?_column ha hf)
  rw [Model.name_of_field? hf] at hread
  have hclose : Opens d.spelling.quote ")".toList [.closing] := toList_closing ▸ opens_closing
  have hspelled := spelled_after (opens_aggregate func)
    (spelled_between (spelled_name hd hquote hf) hclose toList_closing rfl spelled_nil)
  rw [Sql.emitOperand, Sql.emitAggregate, emitColumn_named hm hf]
  exact ⟨rfl, _, hspelled, hread⟩

omit hm ha hquote in
private theorem readsAs_value (lookup : TypeId → Except Error Model) (scope : Option TableRef) (v : Value) :
    ReadsAs d.spelling m (Sql.emitOperand lookup scope (.value v)) (.value v) := by
  refine ⟨rfl, [.placeholder], ?_, reads_value v⟩
  intro k
  change Lexes _ (d.spelling.placeholder (k + 1) ++ "").toList _
  rw [String.append_empty]
  exact lexes_placeholder hd (k + 1)

omit hd hm ha hquote in
private theorem readsAs_condition {p : Predicate} (hp : p.Combined m) {scope : Option TableRef}
    (hs : StandsAs s m (Sql.emitPredicate lookup scope p) p) :
    ReadsAs s m (Sql.emitOperand lookup scope (.predicate p)) (.predicate p) := by
  rw [Sql.emitOperand, Sql.asOperand, hp.not_quantified]
  exact readsAs_bracketed hs

mutual

theorem readsAs_operand : ∀ {e : Expr}, e.Combined m →
    ReadsAs d.spelling m (Sql.emitOperand lookup (Compiler.scopeOf t) e) e
  | _, .column hf => readsAs_column hd hm ha hquote hf
  | _, .value v => readsAs_value hd lookup _ v
  | _, .aggregate func hf => readsAs_aggregate hd hm ha hquote func hf
  -- Only here parentheses are written, so the groups of the text are the nested conditions.
  | _, .condition hp => readsAs_condition hp (standsAs_predicate hp)

private theorem standsAs_predicate : ∀ {p : Predicate}, p.Combined m →
    StandsAs d.spelling m (Sql.emitPredicate lookup (Compiler.scopeOf t) p) p
  | _, .column hf hop he =>
    standsAs_binary (by rintro rfl; simp at hop) (readsAs_column hd hm ha hquote hf)
      (readsAs_operand he)
  | _, .aggregate hf hop he =>
    standsAs_binary (by rintro rfl; simp at hop) (readsAs_aggregate hd hm ha hquote _ hf)
      (readsAs_operand he)
  | _, .inList hf hne hi =>
    standsAs_inList hne (readsAs_column hd hm ha hquote hf) fun e he => readsAs_operand (hi e he)
  | _, .and hp hq =>
    standsAs_binary (by decide) (readsAs_condition hp (standsAs_predicate hp))
      (readsAs_condition hq (standsAs_predicate hq))
  | _, .or hp hq =>
    standsAs_binary (by decide) (readsAs_condition hp (standsAs_predicate hp))
      (readsAs_condition hq (standsAs_predicate hq))
  | _, .not hp => standsAs_not (readsAs_condition hp (standsAs_predicate hp))

end

omit ha in
/-- The condition that a text says is the one it was written for, and no other condition has its text and
its arguments. -/
theorem condition?_emitPredicate (hr : m.Reachable) {p : Predicate} (hp : p.Combined m) (k : Nat) :
    (Sql.emitPredicate lookup (Compiler.scopeOf t) p).outcome = .ok () ∧
    condition? d.spelling.quote m
      (d.spelling.text k (Sql.emitPredicate lookup (Compiler.scopeOf t) p).pieces)
      (argsOf (Sql.emitPredicate lookup (Compiler.scopeOf t) p).pieces) = some p ∧
    ∀ q : Predicate, q.Combined m →
      d.spelling.text k (Sql.emitPredicate lookup (Compiler.scopeOf t) q).pieces =
        d.spelling.text k (Sql.emitPredicate lookup (Compiler.scopeOf t) p).pieces →
      argsOf (Sql.emitPredicate lookup (Compiler.scopeOf t) q).pieces =
        argsOf (Sql.emitPredicate lookup (Compiler.scopeOf t) p).pieces → q = p := by
  have hread (q : Predicate) (hq : q.Combined m) : condition? d.spelling.quote m
      (d.spelling.text k (Sql.emitPredicate lookup (Compiler.scopeOf t) q).pieces)
      (argsOf (Sql.emitPredicate lookup (Compiler.scopeOf t) q).pieces) = some q := by
    obtain ⟨ts, hts, hstand⟩ := (standsAs_predicate hd hm hr.apart hquote hq).tokens
    have hscan := hts k [] (fun c hc => by cases hc)
    rw [List.append_nil] at hscan
    rw [condition?, hscan]
    simpa [scan, Mode.finish] using condition?_of_stands hstand
  refine ⟨(standsAs_predicate hd hm hr.apart hquote hp).outcome, hread p hp, ?_⟩
  intro q hq htext hargs
  have hsame := hread q hq
  rw [htext, hargs, hread p hp] at hsame
  exact (Option.some.inj hsame).symm

end

/-- A condition of every kind, under a renamed column. -/
theorem condition?_emitPredicate_not :
    let info : StructInfo := ⟨"Note", .named "Note", 16, none,
      [⟨"id", none, 0, 8, ⟨.integer .i64⟩⟩, ⟨"score", some "column=points.total", 8, 8, ⟨.integer .i64⟩⟩]⟩
    let m : Model := ⟨"note", .named "Note",
      [⟨"id", "id", 0, 8, ⟨.integer .i64⟩, 0⟩, ⟨"score", "points.total", 8, 8, ⟨.integer .i64⟩, 1⟩]⟩
    let one : Predicate := (Column.named "id").inList [.value .null, .column (.named "score")]
    let two : Predicate := Aggregate.compare ⟨.max, .named "score", none⟩ .ge (.predicate one)
    let p : Predicate := ((one.and two).not).or ((Column.named "id").compare .like (.value .null))
    Model.parse (.struct info) = .ok m ∧ condition? '"' m
      (Dialect.postgres.spelling.text 0
        (Sql.emitPredicate (fun _ => .ok m) (Compiler.scopeOf (.named "Note")) p).pieces)
      (argsOf (Sql.emitPredicate (fun _ => .ok m) (Compiler.scopeOf (.named "Note")) p).pieces) =
        some p := by
  intro info m one two p
  have hparse : Model.parse (.struct info) = .ok m := by decide
  have hid : (m.field? "id").isSome := by decide
  have hscore : (m.field? "score").isSome := by decide
  have hquote : ∀ f ∈ m.fields, Dialect.postgres.spelling.quote ∉ f.column.toList := by decide
  have hone : one.Combined m := by
    refine .inList hid (by simp) fun e he => ?_
    simp only [List.mem_cons, List.not_mem_nil, or_false] at he
    rcases he with rfl | rfl
    · exact .value .null
    · exact .column hscore
  have htwo : two.Combined m := .aggregate hscore (by simp) (.condition hone)
  have hp : p.Combined m := .or (.not (.and hone htwo)) (.column hid (by simp) (.value .null))
  have hd : Dialect.postgres ∈ Dialect.given := by simp [Dialect.given]
  exact ⟨hparse, (condition?_emitPredicate hd rfl hquote (.parse hparse) hp 0).2.1⟩

end Reader

end EntitySql
