import EntitySql.Proofs.Sql.Grouping
import EntitySql.Proofs.Sql.Placeholder

namespace EntitySql

open Grouping

/-- A way to show the names and placeholders of a statement. -/
structure Display where
  name : String → String
  placeholder : Nat → String

namespace Display

def text (v : Display) (bound : Nat) : List Piece → String
  | [] => ""
  | .text t :: rest => t ++ v.text bound rest
  | .name n :: rest => v.name n ++ v.text bound rest
  | .bound _ :: rest => v.placeholder (bound + 1) ++ v.text (bound + 1) rest
  | .raw sql args :: rest => sql ++ v.text (bound + args.length) rest

/-- Pieces that are balanced each for itself, if the wording between them is. -/
structure Steady (quotes : List Char) (v : Display) (ps : List Piece) : Prop where
  names : ∀ n, .name n ∈ ps → IsBalanced quotes (v.name n)
  placeholders : ∀ n, IsBalanced quotes (v.placeholder n)
  fragments : ∀ sql args, .raw sql args ∈ ps → IsBalanced quotes sql

variable {quotes : List Char} {v : Display} {xs ys : List Piece}

private theorem text_append (k : Nat) : v.text k (xs ++ ys) = v.text k xs ++ v.text (k + (argsOf xs).length) ys := by
  induction xs generalizing k with
  | nil => simp [text, argsOf]
  | cons p rest ih =>
    cases p <;>
      simp [text, ih, argsOf, Piece.args, String.append_assoc, Nat.add_assoc, Nat.add_comm 1]

private theorem Steady.of_subset (h : v.Steady quotes ys) (hsub : xs ⊆ ys) : v.Steady quotes xs where
  names n hn := h.names n (hsub hn)
  placeholders := h.placeholders
  fragments sql args hraw := h.fragments sql args (hsub hraw)

end Display

namespace Spelling

variable {s : Spelling} {quotes : List Char}

/-- The way in which a dialect shows names and placeholders. -/
def display (s : Spelling) : Display := ⟨s.name, s.placeholder⟩

theorem display_text (k : Nat) (ps : List Piece) : s.display.text k ps = s.text k ps := by
  induction ps generalizing k with
  | nil => rfl
  | cons p rest ih => cases p <;> rw [Display.text, text, ih] <;> rfl

private theorem run_segment (hs : s.quote ∈ quotes) {cs : List Char} (h : s.quote ∉ cs) (rest : List Char) :
    run quotes ⟨0, none⟩ (s.segment cs ++ rest) = run quotes ⟨0, none⟩ rest := by
  have hopen : s.segment cs ++ rest = s.quote :: (cs ++ s.quote :: rest) := by simp [segment]
  rw [hopen, run]
  simp only [step, hs, if_true]
  exact run_quoted h rest

/-- Whatever else a name holds, it is balanced if it does not hold the quote that it stands between. -/
theorem balanced_name (hquotes : ∀ q ∈ quotes, isWordingChar q = false) (hs : s.quote ∈ quotes) {n : String}
    (h : s.quote ∉ n.toList) : IsBalanced quotes (s.name n) := by
  have hparts : ∀ part ∈ Text.split '.' n.toList, s.quote ∉ part := by
    intro part hpart hmem
    have hjoined : s.quote ∈ Text.join ['.'] (Text.split '.' n.toList) := Text.mem_join_of_mem hmem hpart
    rw [Text.join_split] at hjoined
    exact h hjoined
  have hpoint (rest : List Char) : run quotes ⟨0, none⟩ ('.' :: rest) = run quotes ⟨0, none⟩ rest := by
    have hdot : run quotes ⟨0, none⟩ ['.'] = some ⟨0, none⟩ := moves_plain hquotes (by decide : Plain ".") 0
    rw [← List.singleton_append, run_append, hdot]
    rfl
  rw [IsBalanced, Moves, name, String.toList_ofList]
  generalize Text.split '.' n.toList = parts at hparts
  induction parts with
  | nil => rfl
  | cons part parts ih =>
    obtain ⟨hpart, hrest⟩ := List.forall_mem_cons.mp hparts
    cases parts with
    | nil =>
      have hlast := run_segment hs hpart []
      rw [List.append_nil] at hlast
      exact hlast
    | cons next parts =>
      rw [List.map_cons, List.map_cons, Text.join, List.append_assoc, run_segment hs hpart,
        List.singleton_append, hpoint]
      exact ih hrest

end Spelling

theorem Dialect.balanced_placeholder {d : Dialect} (hd : d ∈ given) {quotes : List Char} (hq : quotes ⊆ marks)
    (n : Nat) : IsBalanced quotes (d.spelling.placeholder n) := by
  have hfree : ∀ c, c ∉ marks → c ∉ quotes := fun c hc hmem => hc (hq hmem)
  have hquestion : IsBalanced quotes "?" := by
    refine moves_of_free (fun c hc => ?_) 0
    obtain rfl := List.mem_singleton.mp hc
    exact ⟨hfree '?' (by decide), by decide, by decide⟩
  have hdollar : IsBalanced quotes (Dialect.dollar n) := by
    refine moves_of_free (fun c hc => ?_) 0
    rw [Spelling.toList_dollar] at hc
    rcases List.mem_cons.mp hc with rfl | hc
    · exact ⟨hfree '$' (by decide), by decide, by decide⟩
    · have hdigit := Spelling.isDigit_of_mem_dollar hc
      refine ⟨hfree c fun hmem => ?_, ?_, ?_⟩
      · have hmarks : marks.all (fun q => !q.isDigit) = true := by decide
        have hnone := List.all_eq_true.mp hmarks c hmem
        rw [hdigit] at hnone
        cases hnone
      all_goals
        rintro rfl
        cases hdigit
  rcases eq_of_given hd with rfl | rfl | rfl
  · exact hquestion
  · exact hquestion
  · exact hdollar

namespace Emission

variable {α β : Type} {quotes : List Char} {v : Display} {l m n : Nat}

/-- A walk that leads from one depth to another if it succeeds. -/
def Shifts (quotes : List Char) (v : Display) (m n : Nat) (e : Emission α) : Prop :=
  ∀ a, e.outcome = .ok a → v.Steady quotes e.pieces → ∀ k, Moves quotes m n (v.text k e.pieces)

def Level (quotes : List Char) (v : Display) (e : Emission α) : Prop := ∀ depth, Shifts quotes v depth depth e

namespace Shifts

private theorem bind {e : Emission α} {f : α → Emission β} (he : Shifts quotes v l m e)
    (hf : ∀ a, Shifts quotes v m n (f a)) : Shifts quotes v l n (e >>= f) := by
  rw [bind_def]
  intro b hb hsteady k
  cases ho : e.outcome with
  | error err =>
    rw [andThen_error ho] at hb
    cases hb
  | ok a =>
    rw [andThen_ok ho] at hb hsteady ⊢
    have hfirst := he a ho (hsteady.of_subset (List.subset_append_left _ _)) k
    have hsecond := hf a b hb (hsteady.of_subset (List.subset_append_right _ _))
    rw [Display.text_append]
    exact hfirst.append (hsecond _)

private theorem next {e next : Emission Unit} (he : Shifts quotes v l m e) (hn : Shifts quotes v m n next) :
    Shifts quotes v l n (do e; next) := he.bind fun _ => hn

private theorem text {t : String} (h : Moves quotes m n t) : Shifts quotes v m n (Emission.text t) := by
  intro _ _ _ k
  rw [Emission.text, write, Display.text, Display.text, String.append_empty]
  exact h

end Shifts

namespace Level

private theorem silent {e : Emission α} (h : e.pieces = []) : Level quotes v e := by
  intro depth _ _ _ k
  rw [h]
  rfl

private theorem pure (a : α) : Level quotes v (Pure.pure a) := silent rfl

private theorem fail (err : Error) : Level quotes v (Emission.fail err : Emission α) := silent rfl

private theorem bind {e : Emission α} {f : α → Emission β} (he : Level quotes v e) (hf : ∀ a, Level quotes v (f a)) :
    Level quotes v (e >>= f) := fun depth => (he depth).bind fun a => hf a depth

private theorem next {e next : Emission Unit} (he : Level quotes v e) (hn : Level quotes v next) :
    Level quotes v (do e; next) := he.bind fun _ => hn

private theorem name (s : String) : Level quotes v (Emission.name s) := by
  intro depth _ _ hsteady k
  have hs : IsBalanced quotes (v.name s) := hsteady.names s List.mem_cons_self
  rw [Emission.name, write, Display.text, Display.text, String.append_empty]
  exact hs.level depth

private theorem bound (value : Value) : Level quotes v (Emission.bound value) := by
  intro depth _ _ hsteady k
  rw [Emission.bound, write, Display.text, Display.text, String.append_empty]
  exact (hsteady.placeholders (k + 1)).level depth

private theorem raw (r : RawSql) : Level quotes v (Emission.raw r) := by
  intro depth _ _ hsteady k
  have hr : IsBalanced quotes r.sql := hsteady.fragments r.sql r.args List.mem_cons_self
  rw [Emission.raw, write, Display.text, Display.text, String.append_empty]
  exact hr.level depth

variable (hquotes : ∀ q ∈ quotes, isWordingChar q = false)
include hquotes

private theorem plain {t : String} (ht : Plain t) : Level quotes v (Emission.text t) :=
  fun depth => .text (moves_plain hquotes ht depth)

private theorem apart {e next : Emission Unit} {t : String} (he : Level quotes v e) (ht : Plain t)
    (hn : Level quotes v next) : Level quotes v (do e; Emission.text t; next) :=
  he.next ((plain hquotes ht).next hn)

/-- A text that opens a group, a walk, and the parenthesis that closes the group. -/
theorem opened {e : Emission Unit} {t : String} (ht : Plain t) (he : Level quotes v e) :
    Level quotes v (do Emission.text (t ++ "("); e; Emission.text ")") := fun depth =>
  have hopen := (moves_plain hquotes ht depth).append (moves_opening hquotes depth)
  (Shifts.text hopen).next ((he (depth + 1)).next (.text (moves_closing hquotes depth)))

private theorem bracketed {e : Emission Unit} (he : Level quotes v e) : Level quotes v e.bracketed :=
  opened hquotes (by decide : Plain "") he

private theorem separated {each : α → Emission Unit} (h : ∀ a, Level quotes v (each a)) :
    ∀ items, Level quotes v (Emission.separated each items)
  | [] => .pure ()
  | [a] => h a
  | a :: b :: rest => (h a).apart hquotes (by decide) (separated h (b :: rest))

end Level

end Emission

namespace Sql

open Emission

variable {lookup : TypeId → Except Error Model} {quotes : List Char} {v : Display}
  (hquotes : ∀ q ∈ quotes, isWordingChar q = false)

private theorem level_alias (hquotes : ∀ q ∈ quotes, isWordingChar q = false) :
    ∀ aliasName, Level quotes v (writeAlias aliasName)
  | some a => (Level.plain hquotes (by decide)).next (.name a)
  | none => .pure ()

include hquotes

private theorem level_asOperand (p : Predicate) {e : Emission Unit} (he : Level quotes v e) :
    Level quotes v (asOperand p e) := by
  unfold asOperand
  split
  · exact he
  · exact he.bracketed hquotes

private theorem level_clause {α : Type} {keyword : String} (hk : Plain keyword) {each : α → Emission Unit}
    (h : ∀ a, Level quotes v (each a)) (items : List α) : Level quotes v (emitClause keyword each items) := by
  cases items with
  | nil => exact .pure ()
  | cons a rest => exact (Level.plain hquotes hk).next (Level.separated hquotes h (a :: rest))

private theorem level_bound {keyword : String} (hk : Plain keyword) (n : Option (Integer .u64)) :
    Level quotes v (emitBound keyword n) := by
  cases n with
  | none => exact .pure ()
  | some n => exact (Level.plain hquotes hk).next (.bound _)

private theorem level_column (scope : Option TableRef) (c : Column) : Level quotes v (emitColumn lookup scope c) := by
  have hresolved : Level quotes v (Resolution.ofColumn lookup scope c) := .silent (quiet_ofColumn scope c).pieces
  refine hresolved.bind fun r => ?_
  obtain ⟨qualifier, column⟩ := r
  cases qualifier with
  | some qualifier => exact (Level.name qualifier).apart hquotes (by decide) (.name column)
  | none => exact .name column

private theorem level_aggregate (scope : Option TableRef) (a : Aggregate) :
    Level quotes v (emitAggregate lookup scope a) := by
  have hfunc : Plain a.func.sql := by cases a.func <;> decide
  exact Level.opened hquotes hfunc (level_column hquotes scope a.column)

private theorem level_orderItem (scope : Option TableRef) (o : OrderItem) :
    Level quotes v (emitOrderItem lookup scope o) := by
  have hdirection : Plain (if o.descending then " DESC" else " ASC") := by split <;> decide
  exact (level_column hquotes scope o.column).next (.plain hquotes hdirection)

mutual

theorem level_operand (scope : Option TableRef) : ∀ e, Level quotes v (emitOperand lookup scope e)
  | .column c => level_column hquotes scope c
  | .value value => .bound value
  | .predicate p => level_asOperand hquotes p (level_predicate scope p)
  | .aggregate a => level_aggregate hquotes scope a
  | .raw r => .raw r
  | .subquery ⟨query, _⟩ => (level_query query).bracketed hquotes
  | .list items => (level_items scope items).bracketed hquotes
termination_by structural x => x

theorem level_items (scope : Option TableRef) : ∀ items, Level quotes v (emitItems lookup scope items)
  | [] => .pure ()
  | [e] => level_operand scope e
  | e :: next :: rest => (level_operand scope e).apart hquotes (by decide) (level_items scope (next :: rest))
termination_by structural x => x

theorem level_predicate (scope : Option TableRef) : ∀ p, Level quotes v (emitPredicate lookup scope p)
  | .binary left op right => by
    have hop : Plain (" " ++ op.sql ++ " ") := by cases op <;> decide
    exact (level_operand scope left).apart hquotes hop (level_operand scope right)
  | .prefixed op operand => by
    have hop : Plain (op.sql ++ " ") := by cases op <;> decide
    exact (Level.plain hquotes hop).next (level_operand scope operand)
  | .raw r => .raw r
termination_by structural x => x

/-- Of the parentheses that a conjunction opens, each further member but the last closes one. -/
theorem shifts_conjunction (scope : Option TableRef) (depth : Nat) : ∀ ps,
    Shifts quotes v (depth + (ps.length - 1)) depth (emitConjunction lookup scope ps)
  | [] => Level.pure () depth
  | [p] =>
    ((Level.plain hquotes (by decide)).next (level_asOperand hquotes p (level_predicate scope p))) depth
  | p :: next :: rest =>
    have hp := level_asOperand hquotes p (level_predicate scope p) (depth + (rest.length + 1))
    have hrest := shifts_conjunction scope depth (next :: rest)
    have hclose := (Shifts.text (moves_closing hquotes (depth + rest.length))).next hrest
    (Level.plain hquotes (by decide) (depth + (rest.length + 1))).next (hp.next hclose)
termination_by structural x => x

theorem level_conditions (scope : Option TableRef) {keyword : String} (hk : Plain (" " ++ keyword ++ " ")) :
    ∀ ps, Level quotes v (emitConditions lookup scope keyword ps)
  | [] => .pure ()
  | [p] => (Level.plain hquotes hk).next (level_predicate scope p)
  | p :: next :: rest => fun depth =>
    have hopen := (moves_plain hquotes hk depth).append (moves_openings hquotes depth rest.length)
    have hp := level_asOperand hquotes p (level_predicate scope p) (depth + rest.length)
    (Shifts.text hopen).next (hp.next (shifts_conjunction scope depth (next :: rest)))
termination_by structural x => x

theorem level_selectable (scope : Option TableRef) : ∀ item,
    Level quotes v (emitSelectable lookup scope item)
  | .column c => (level_column hquotes scope c).next (level_alias hquotes c.aliasName)
  | .aggregate a => (level_aggregate hquotes scope a).next (level_alias hquotes a.aliasName)
  | .raw r => .raw r
  | .subquery ⟨query, aliasName⟩ => ((level_query query).bracketed hquotes).next (level_alias hquotes aliasName)
termination_by structural x => x

theorem level_selectList (scope : Option TableRef) : ∀ items,
    Level quotes v (emitSelectList lookup scope items)
  | [] => .plain hquotes (by decide)
  | [item] => level_selectable scope item
  | item :: next :: rest =>
    (level_selectable scope item).apart hquotes (by decide) (level_selectList scope (next :: rest))
termination_by structural x => x

theorem level_source (scope : Option TableRef) : ∀ source, Level quotes v (emitSource lookup scope source)
  | .table t =>
    (Level.silent rfl).bind fun m => (Level.name m.table).next (level_alias hquotes t.aliasName)
  | .join kind left right (.on conditions) => by
    have hkind : Plain (" " ++ kind.sql ++ " ") := by cases kind <;> decide
    have hon := level_conditions scope (by decide : Plain (" " ++ "ON" ++ " ")) conditions
    exact (level_source scope left).apart hquotes hkind ((level_source scope right).next hon)
  | .join kind left right (.using fields) => by
    have hkind : Plain (" " ++ kind.sql ++ " ") := by cases kind <;> decide
    have hfield (field : String) : Level quotes v (do
        let (_, column) ← Resolution.resolve lookup field (.join kind left right (.using fields))
        Emission.name column) :=
      (Level.silent (quiet_resolve field _).pieces).bind fun r => .name r.2
    have husing := Level.opened hquotes (by decide : Plain " USING ") (Level.separated hquotes hfield fields)
    exact (level_source scope left).apart hquotes hkind ((level_source scope right).next husing)
  | .subquery ⟨query, aliasName⟩ => ((level_query query).bracketed hquotes).next (level_alias hquotes aliasName)
termination_by structural x => x

theorem level_query : ∀ q, Level quotes v (emitQuery lookup q)
  | ⟨source, columns, distinct, conditions, groupBy, having, orderBy, limit, offset⟩ => by
    rw [emitQuery]
    split
    · exact .fail _
    have hselect : Plain (if distinct then "SELECT DISTINCT " else "SELECT ") := by split <;> decide
    refine (Level.plain hquotes hselect).next
      ((level_selectList (some source) columns).apart hquotes (by decide) ?_)
    refine (level_source (some source) source).next ?_
    refine (level_conditions (some source) (by decide) conditions).next ?_
    refine (level_clause hquotes (by decide) (level_column hquotes (some source)) groupBy).next ?_
    refine (level_conditions (some source) (by decide) having).next ?_
    refine (level_clause hquotes (by decide) (level_orderItem hquotes (some source)) orderBy).next ?_
    exact (level_bound hquotes (by decide) limit).next (level_bound hquotes (by decide) offset)
termination_by structural x => x

end

end Sql

end EntitySql
