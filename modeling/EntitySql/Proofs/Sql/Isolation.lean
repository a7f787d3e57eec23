import EntitySql.Proofs.Sql.Balance
import EntitySql.Proofs.Sql.Frame
import EntitySql.Proofs.Sql.Lexeme

namespace EntitySql

open Grouping

namespace Emission

def conjoin (e n : Emission Unit) : Emission Unit := do
  e.bracketed
  text " AND "
  n.bracketed

variable {e n : Emission Unit}

private theorem conjoin_eq (he : e.outcome = .ok ()) :
    conjoin e n =
      ⟨.text "(" :: (e.pieces ++ .text ")" :: .text " AND " :: .text "(" :: (n.pieces ++ closing n.outcome)),
        e.consulted ++ n.consulted, n.outcome⟩ := by
  rw [conjoin, bracketed_eq, bracketed_eq, he]
  simp [bind_def, andThen, text, write, closing]

private theorem outcome_conjoin : (conjoin e n).outcome = .ok () ↔ e.outcome = .ok () ∧ n.outcome = .ok () := by
  cases he : e.outcome with
  | error err => simp [conjoin, bracketed_eq, bind_def, andThen, he]
  | ok u => simp [conjoin_eq he]

private theorem args_conjoin (he : e.outcome = .ok ()) (hn : n.outcome = .ok ()) :
    argsOf (conjoin e n).pieces = argsOf e.pieces ++ argsOf n.pieces := by
  simp [conjoin_eq he, hn, closing, argsOf, Piece.args]

private theorem text_conjoin (s : Spelling) (k : Nat) (he : e.outcome = .ok ()) (hn : n.outcome = .ok ()) :
    s.text k (conjoin e n).pieces =
      "(" ++ s.text k e.pieces ++ ") AND (" ++ s.text (k + (argsOf e.pieces).length) n.pieces ++ ")" := by
  have hmiddle : ") AND (" = ")" ++ (" AND " ++ "(") := by decide
  rw [conjoin_eq he, hn, hmiddle]
  simp only [Spelling.text, Spelling.text_append, closing, String.append_assoc, String.append_empty]

end Emission

open Emission

namespace Builder

variable (schema : Schema) (b : Builder)

/-- A predicate by itself, in the dialect, the registry and the scope of the builder. -/
def alone (p : Predicate) : Except Error Unit × Builder :=
  ((Call.predicate p).walk schema).run { b with sql := "", args := [] }

def emission (p : Predicate) : Emission Unit := Sql.emitPredicate (b.registry.view schema) b.scope p

def lexemes (p : Predicate) : List Lexeme := Lexeme.ofPieces 0 (b.emission schema p).pieces

/-- The texts of predicates in a row: each as by itself, but with the arguments counted that stand before. -/
def texts (k : Nat) : List Predicate → List String
  | [] => []
  | p :: rest =>
    b.dialect.spelling.spell ((b.lexemes schema p).map (.renumbered k)) ::
      texts (k + (b.alone schema p).2.args.length) rest

def outline (p : Predicate) : String := Display.text ⟨fun _ => "", fun _ => ""⟩ 0 (b.emission schema p).pieces

def folded (e : Emission Unit) (ps : List Predicate) : Emission Unit :=
  ps.foldl (fun e p => conjoin e (b.emission schema p)) e

variable {schema b} {e : Emission Unit} {p : Predicate} {ps : List Predicate}

private theorem alone_eq (p : Predicate) :
    b.alone schema p = { b with sql := "", args := [] }.put schema (b.emission schema p) :=
  writes_predicate b.scope p { b with sql := "", args := [] } rfl rfl

private theorem alone_outcome (p : Predicate) : (b.alone schema p).1 = (b.emission schema p).outcome := by
  rw [alone_eq]
  rfl

private theorem alone_args (p : Predicate) : (b.alone schema p).2.args = argsOf (b.emission schema p).pieces := by
  rw [alone_eq]
  rfl

private theorem alone_sql (p : Predicate) : (b.alone schema p).2.sql = b.dialect.spelling.spell
    (b.lexemes schema p) := by
  rw [alone_eq, lexemes, Spelling.spell_ofPieces]
  exact String.empty_append

private theorem texts_cons (k : Nat) (p : Predicate) (rest : List Predicate) :
    b.texts schema k (p :: rest) =
      b.dialect.spelling.text k (b.emission schema p).pieces ::
        b.texts schema (k + (argsOf (b.emission schema p).pieces).length) rest := by
  have hcount := Lexeme.ofPieces_add k 0 (b.emission schema p).pieces
  rw [Nat.zero_add] at hcount
  rw [texts, alone_args, lexemes, ← hcount, Spelling.spell_ofPieces]

private theorem length_texts (k : Nat) (ps : List Predicate) : (b.texts schema k ps).length = ps.length := by
  induction ps generalizing k with
  | nil => rfl
  | cons p rest ih => rw [texts, List.length_cons, List.length_cons, ih]

private theorem mem_texts {k : Nat} {t : String} (h : t ∈ b.texts schema k ps) :
    ∃ p ∈ ps, ∃ j, t = b.dialect.spelling.text j (b.emission schema p).pieces := by
  induction ps generalizing k with
  | nil => cases h
  | cons p rest ih =>
    rw [texts_cons] at h
    rcases List.mem_cons.mp h with rfl | h
    · exact ⟨p, List.mem_cons_self, k, rfl⟩
    · obtain ⟨q, hq, j, rfl⟩ := ih h
      exact ⟨q, List.mem_cons_of_mem p hq, j, rfl⟩

/-- Where all placeholders look alike, a predicate among others has the text that it has by itself. -/
theorem texts_of_alike (halike : ∀ i j, b.dialect.spelling.placeholder i = b.dialect.spelling.placeholder j)
    (k : Nat) (ps : List Predicate) : b.texts schema k ps = ps.map fun p => (b.alone schema p).2.sql := by
  induction ps generalizing k with
  | nil => rfl
  | cons p rest ih => rw [texts, Spelling.spell_renumbered halike, ih, List.map_cons, alone_sql]

private theorem writes_folded {lookup : TypeId → Except Error Model} {scope : Option TableRef} {walk : Build Unit}
    (hview : b.registry.view schema = lookup) (hscope : b.scope = scope)
    (hbare : ∀ p ∈ ps, p.isQuantified = false) (he : Writes schema lookup scope walk e) :
    Writes schema lookup scope (writeConjunction schema false walk ps) (b.folded schema e ps) := by
  induction ps generalizing walk e with
  | nil => exact he
  | cons p rest ih =>
    obtain ⟨hp, hrest⟩ := List.forall_mem_cons.mp hbare
    have hpredicate : Writes schema lookup scope (writePredicate schema p) (b.emission schema p) := by
      rw [emission, hview, hscope]
      exact writes_predicate scope p
    rw [writeConjunction, hp]
    exact ih hrest (he.bracketed.next (.spaced BinaryOp.and.sql hpredicate.bracketed))

private theorem outcome_folded : (b.folded schema e ps).outcome = .ok () ↔
    e.outcome = .ok () ∧ ∀ p ∈ ps, (b.emission schema p).outcome = .ok () := by
  induction ps generalizing e with
  | nil => simp [folded]
  | cons p rest ih =>
    have hstep : b.folded schema e (p :: rest) = b.folded schema (conjoin e (b.emission schema p)) rest := rfl
    rw [hstep, ih, outcome_conjoin, List.forall_mem_cons, and_assoc]

/-- The text of a conjunction is the conjunction of the texts. -/
theorem text_folded (k : Nat) (he : e.outcome = .ok ())
    (h : ∀ p ∈ ps, (b.emission schema p).outcome = .ok ()) :
    argsOf (b.folded schema e ps).pieces =
        argsOf e.pieces ++ ps.flatMap (fun p => argsOf (b.emission schema p).pieces) ∧
      b.dialect.spelling.text k (b.folded schema e ps).pieces =
        conjoined (b.dialect.spelling.text k e.pieces ::
          b.texts schema (k + (argsOf e.pieces).length) ps) := by
  induction ps generalizing e with
  | nil => exact ⟨(List.append_nil _).symm, rfl⟩
  | cons p rest ih =>
    obtain ⟨hp, hrest⟩ := List.forall_mem_cons.mp h
    obtain ⟨hargs, htext⟩ := ih (outcome_conjoin.mpr ⟨he, hp⟩) hrest
    have hstep : b.folded schema e (p :: rest) = b.folded schema (conjoin e (b.emission schema p)) rest := rfl
    rw [args_conjoin he hp] at hargs htext
    rw [text_conjoin _ _ he hp, List.length_append, ← Nat.add_assoc] at htext
    refine ⟨?_, ?_⟩
    · rw [hstep, hargs, List.flatMap_cons, List.append_assoc]
    · rw [hstep, htext, texts_cons]
      rfl

/-- Predicates after a keyword, of which none is a bare quantifier if there are several. -/
theorem run_conditions (keyword : String) {p : Predicate} {rest : List Predicate}
    (hbare : rest ≠ [] → ∀ q ∈ p :: rest, q.isQuantified = false) :
    ((Call.conditions keyword (p :: rest)).walk schema).run b =
      { b with sql := b.sql ++ (" " ++ keyword ++ " ") }.put schema
        (b.folded schema (b.emission schema p) rest) := by
  have hfirst : Writes schema (b.registry.view schema) b.scope (writePredicate schema p) (b.emission schema p) :=
    writes_predicate b.scope p
  have hall : Writes schema (b.registry.view schema) b.scope
      (writeConjunction schema p.isQuantified (writePredicate schema p) rest)
      (b.folded schema (b.emission schema p) rest) := by
    cases rest with
    | nil => exact hfirst
    | cons q rest =>
      obtain ⟨hp, hrest⟩ := List.forall_mem_cons.mp (hbare (List.cons_ne_nil q rest))
      rw [hp]
      exact writes_folded rfl rfl hrest hfirst
  have hrun := (Writes.spaced keyword hall) b rfl rfl
  rw [put_bind, put_text] at hrun
  exact hrun

private theorem conditions_ok_iff (keyword : String) {rest : List Predicate}
    (hbare : rest ≠ [] → ∀ q ∈ p :: rest, q.isQuantified = false) :
    (((Call.conditions keyword (p :: rest)).walk schema).run b).1 = .ok () ↔
      ∀ q ∈ p :: rest, (b.alone schema q).1 = .ok () := by
  rw [run_conditions keyword hbare]
  simp only [alone_outcome, List.forall_mem_cons]
  exact outcome_folded

private theorem conditions_text (keyword : String) {rest : List Predicate}
    (hbare : rest ≠ [] → ∀ q ∈ p :: rest, q.isQuantified = false)
    (hok : ∀ q ∈ p :: rest, (b.alone schema q).1 = .ok ()) :
    let after := (((Call.conditions keyword (p :: rest)).walk schema).run b).2
    after.scope = b.scope ∧ after.args = b.args ++ (p :: rest).flatMap (fun q => (b.alone schema q).2.args) ∧
      after.sql = b.sql ++ clause keyword (b.texts schema b.argCount (p :: rest)) := by
  have hemitted : ∀ q ∈ p :: rest, (b.emission schema q).outcome = .ok () :=
    fun q hq => (alone_outcome q).symm.trans (hok q hq)
  obtain ⟨hp, hrest⟩ := List.forall_mem_cons.mp hemitted
  obtain ⟨hargs, htext⟩ := text_folded b.argCount hp hrest
  rw [← texts_cons] at htext
  intro after
  have hafter : after = _ := congrArg Prod.snd (run_conditions keyword hbare)
  refine ⟨?_, ?_, ?_⟩
  · rw [hafter]
    rfl
  · have hall : (p :: rest).flatMap (fun q => (b.alone schema q).2.args) =
        argsOf (b.folded schema (b.emission schema p) rest).pieces := by
      simp only [alone_args, List.flatMap_cons]
      exact hargs.symm
    rw [hafter, hall]
    rfl
  · have hclause : clause keyword (b.texts schema b.argCount (p :: rest)) =
        " " ++ keyword ++ " " ++
          b.dialect.spelling.text b.argCount (b.folded schema (b.emission schema p) rest).pieces := by
      rw [htext]
      rfl
    rw [hclause, ← String.append_assoc, hafter]
    rfl

/-- Fragments that are balanced leave a predicate balanced, however its names and placeholders are shown. -/
theorem balanced_predicate {quotes : List Char} (hquotes : quotes ⊆ marks) {v : Display}
    (hok : (b.alone schema p).1 = .ok ()) (hsteady : v.Steady quotes (b.emission schema p).pieces) (k : Nat) :
    IsBalanced quotes (v.text k (b.emission schema p).pieces) := by
  rw [alone_outcome] at hok
  exact Sql.level_predicate (not_wording_of_marks hquotes) b.scope p 0 () hok hsteady k

section

variable {quotes : List Char} (hquotes : quotes ⊆ marks) (hok : ∀ p ∈ ps, (b.alone schema p).1 = .ok ())
  (hfragments : ∀ p ∈ ps, ∀ sql args, .raw sql args ∈ (b.emission schema p).pieces → IsBalanced quotes sql)

include hquotes hok hfragments

private theorem members?_outlines :
    members? quotes ps.length (conjoined (ps.map (b.outline schema))).toList =
      some (ps.map (b.outline schema)) := by
  have hbalanced : ∀ t ∈ ps.map (b.outline schema), IsBalanced quotes t := by
    intro t ht
    obtain ⟨p, hp, rfl⟩ := List.mem_map.mp ht
    refine balanced_predicate hquotes (hok p hp) ⟨fun _ _ => ?_, fun _ => ?_, hfragments p hp⟩ 0
    · exact balanced_empty
    · exact balanced_empty
  have hmembers := members?_conjoined (not_wording_of_marks hquotes) hbalanced
  rwa [List.length_map] at hmembers

private theorem members?_texts (hquote : b.dialect.spelling.quote ∈ quotes)
    (hplaceholders : ∀ n, IsBalanced quotes (b.dialect.spelling.placeholder n))
    (hnames : ∀ p ∈ ps, ∀ n, .name n ∈ (b.emission schema p).pieces → b.dialect.spelling.quote ∉ n.toList)
    (k : Nat) :
    members? quotes ps.length (conjoined (b.texts schema k ps)).toList = some (b.texts schema k ps) := by
  have hbalanced : ∀ t ∈ b.texts schema k ps, IsBalanced quotes t := by
    intro t ht
    obtain ⟨p, hp, j, rfl⟩ := mem_texts ht
    rw [← Spelling.display_text]
    refine balanced_predicate hquotes (hok p hp) ⟨fun n hn => ?_, hplaceholders, hfragments p hp⟩ j
    exact Spelling.balanced_name (not_wording_of_marks hquotes) hquote (hnames p hp n hn)
  have hmembers := members?_conjoined (not_wording_of_marks hquotes) hbalanced
  rwa [length_texts] at hmembers

end

/-- Conditions keep to themselves. Several, of which none is a bare quantifier, are written if each of them is by
itself. They bind the arguments that they bind by themselves, and their text is the conjunction, nested to the
left, of the texts that they have by themselves, with the placeholders renumbered by the arguments before. If
their fragments are balanced, a reader of parentheses finds them again: where names and placeholders are left
out, and also in the text itself if these do not mislead the reader, that is if no name holds the quote that
it stands between. A single condition stands without parentheses, and nothing is written for none. -/
theorem conditions_isolated (schema : Schema) (b : Builder) (keyword : String) {ps : List Predicate}
    (hbare : 2 ≤ ps.length → ∀ p ∈ ps, p.isQuantified = false) :
    let after := ((Call.conditions keyword ps).walk schema).run b
    let texts := b.texts schema b.argCount ps
    (after.1 = .ok () ↔ ∀ p ∈ ps, (b.alone schema p).1 = .ok ()) ∧
      ((∀ p ∈ ps, (b.alone schema p).1 = .ok ()) →
        after.2.scope = b.scope ∧
        after.2.args = b.args ++ ps.flatMap (fun p => (b.alone schema p).2.args) ∧
        after.2.sql = b.sql ++ clause keyword texts ∧
        (∀ p ∈ ps, (b.alone schema p).2.sql = b.dialect.spelling.spell (b.lexemes schema p)) ∧
        ((∀ i j, b.dialect.spelling.placeholder i = b.dialect.spelling.placeholder j) →
          texts = ps.map fun p => (b.alone schema p).2.sql) ∧
        (∀ k n, Dialect.postgres.spelling.lexeme (.renumbered k (.placeholder n)) = "$" ++ toString (n + k)) ∧
        ∀ quotes ⊆ marks,
          (∀ p ∈ ps, ∀ sql args, .raw sql args ∈ (b.emission schema p).pieces → IsBalanced quotes sql) →
          members? quotes ps.length (conjoined (ps.map (b.outline schema))).toList =
              some (ps.map (b.outline schema)) ∧
            (b.dialect.spelling.quote ∈ quotes → (∀ n, IsBalanced quotes (b.dialect.spelling.placeholder n)) →
              (∀ p ∈ ps, ∀ n, .name n ∈ (b.emission schema p).pieces → b.dialect.spelling.quote ∉ n.toList) →
              members? quotes ps.length (conjoined texts).toList = some texts)) := by
  intro after texts
  have hwritten : (after.1 = .ok () ↔ ∀ p ∈ ps, (b.alone schema p).1 = .ok ()) ∧
      ((∀ p ∈ ps, (b.alone schema p).1 = .ok ()) →
        after.2.scope = b.scope ∧
        after.2.args = b.args ++ ps.flatMap (fun p => (b.alone schema p).2.args) ∧
        after.2.sql = b.sql ++ clause keyword texts) := by
    cases ps with
    | nil =>
      refine ⟨⟨fun _ => List.forall_mem_nil _, fun _ => rfl⟩, fun _ => ⟨rfl, ?_, ?_⟩⟩
      · exact (List.append_nil _).symm
      · exact String.append_empty.symm
    | cons p rest =>
      have hseveral : rest ≠ [] → ∀ q ∈ p :: rest, q.isQuantified = false :=
        fun hne => hbare (Nat.succ_le_succ (List.length_pos_iff.mpr hne))
      exact ⟨conditions_ok_iff keyword hseveral, conditions_text keyword hseveral⟩
  refine ⟨hwritten.1, fun hok => ?_⟩
  obtain ⟨hscope, hargs, hsql⟩ := hwritten.2 hok
  refine ⟨hscope, hargs, hsql, fun p _ => alone_sql p, fun halike => texts_of_alike halike _ _, fun _ _ => rfl, ?_⟩
  intro quotes hquotes hfragments
  refine ⟨members?_outlines hquotes hok hfragments, fun hquote hplaceholders hnames => ?_⟩
  exact members?_texts hquotes hok hfragments hquote hplaceholders hnames b.argCount

/-- Behind one argument, a comparison between two fragments. Either fragment has an OR, and the first one has a
parenthesis in a string. -/
theorem conditions_isolated_fragments :
    let m : Model := ⟨"notes", .named "Note", [⟨"score", "score", 0, 8, ⟨.integer .i64⟩, 0⟩]⟩
    let r : Registry := Registry.empty.insert (.named "Note") m
    let schema : Schema := fun _ => .other
    let b : Builder := ⟨.postgres, r, "UPDATE \"notes\" SET \"score\" = $1", [.null],
      some (.table ⟨.named "Note", none⟩)⟩
    let ps : List Predicate := [.raw ⟨"a = 1 OR b = ')'", []⟩,
      (Column.named "score").compare .eq (.value (.bool true)), .raw ⟨"c < $3 OR (d)", [.bool false]⟩]
    let texts := ["a = 1 OR b = ')'", "\"score\" = $2", "c < $3 OR (d)"]
    let after := ((Call.conditions "WHERE" ps).walk schema).run b
    (∀ p ∈ ps, p.isQuantified = false) ∧ after.1 = .ok () ∧ after.2.args = [.null, .bool true, .bool false] ∧
      after.2.sql = "UPDATE \"notes\" SET \"score\" = $1 WHERE " ++
        "((a = 1 OR b = ')') AND (\"score\" = $2)) AND (c < $3 OR (d))" ∧
      ps.map (fun p => (b.alone schema p).2.sql) = ["a = 1 OR b = ')'", "\"score\" = $1", "c < $3 OR (d)"] ∧
      members? ['\'', '"'] 3 (conjoined texts).toList = some texts := by
  intro m r schema b ps texts after
  have hbare : ∀ p ∈ ps, p.isQuantified = false := by decide
  have hok : ∀ p ∈ ps, (b.alone schema p).1 = .ok () :=
    List.forall_mem_cons.mpr ⟨rfl, List.forall_mem_cons.mpr ⟨rfl, List.forall_mem_cons.mpr ⟨rfl, nofun⟩⟩⟩
  have hpieces : (ps.flatMap fun p => (b.emission schema p).pieces) =
      [.raw "a = 1 OR b = ')'" [], .name "score", .text " = ", .bound (.bool true),
        .raw "c < $3 OR (d)" [.bool false]] := by
    decide
  have hmem : ∀ p ∈ ps, ∀ piece ∈ (b.emission schema p).pieces,
      piece ∈ ps.flatMap fun p => (b.emission schema p).pieces :=
    fun p hp _ hpiece => List.mem_flatMap.mpr ⟨p, hp, hpiece⟩
  rw [hpieces] at hmem
  have hfragments : ∀ p ∈ ps, ∀ sql args, .raw sql args ∈ (b.emission schema p).pieces →
      IsBalanced ['\'', '"'] sql := by
    intro p hp sql args hraw
    have hlisted : sql = "a = 1 OR b = ')'" ∨ sql = "c < $3 OR (d)" := by
      rcases List.mem_cons.mp (hmem p hp _ hraw) with h | h
      · cases h
        exact .inl rfl
      · simp only [List.mem_cons, List.not_mem_nil, Piece.raw.injEq, reduceCtorEq, false_or, or_false] at h
        exact .inr h.1
    rcases hlisted with rfl | rfl <;> decide
  have hnames : ∀ p ∈ ps, ∀ n, .name n ∈ (b.emission schema p).pieces →
      b.dialect.spelling.quote ∉ n.toList := by
    intro p hp n hname
    have hlisted : n = "score" := by simpa using hmem p hp _ hname
    rw [hlisted]
    decide
  have hquotes : ['\'', '"'] ⊆ marks := by decide
  have htexts : b.texts schema b.argCount ps = texts := by decide +kernel
  have hseveral : 2 ≤ ps.length → ∀ p ∈ ps, p.isQuantified = false := fun _ => hbare
  obtain ⟨houtcome, hwritten⟩ := conditions_isolated schema b "WHERE" hseveral
  obtain ⟨-, hargs, hsql, -, -, -, hfound⟩ := hwritten hok
  obtain ⟨-, hmembers⟩ := hfound ['\'', '"'] hquotes hfragments
  have hpostgres : Dialect.postgres ∈ Dialect.given := by simp [Dialect.given]
  have hread := hmembers (by decide) (Dialect.balanced_placeholder hpostgres hquotes) hnames
  rw [htexts] at hsql hread
  exact ⟨hbare, houtcome.mpr hok, hargs, hsql, by decide, hread⟩

end Builder

end EntitySql
