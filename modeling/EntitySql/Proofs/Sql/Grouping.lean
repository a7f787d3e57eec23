import EntitySql.Proofs.Sql.Composition
import Mathlib.Data.List.Basic
import Mathlib.Data.List.Induction

namespace EntitySql.Grouping

/-- The quotes that strings and names stand between. -/
def marks : List Char := ['\'', '"', '\x60']

/-- Where a reader stands: how many groups it is in, and the quote that it is behind. -/
structure Place where
  depth : Nat
  quote : Option Char
  deriving DecidableEq, Repr

/-- The place behind a character. There is none behind a parenthesis that closes nothing. -/
def step (quotes : List Char) (s : Place) (c : Char) : Option Place :=
  match s with
  | ⟨depth, some q⟩ => some ⟨depth, if c = q then none else some q⟩
  | ⟨depth, none⟩ =>
    if c ∈ quotes then some ⟨depth, some c⟩
    else if c = '(' then some ⟨depth + 1, none⟩
    else if c = ')' then
      match depth with
      | 0 => none
      | depth + 1 => some ⟨depth, none⟩
    else some ⟨depth, none⟩

def run (quotes : List Char) (s : Place) : List Char → Option Place
  | [] => some s
  | c :: rest =>
    match step quotes s c with
    | some s => run quotes s rest
    | none => none

/-- A text that leads from one depth to another, with quotes that are closed. -/
def Moves (quotes : List Char) (m n : Nat) (t : String) : Prop :=
  run quotes ⟨m, none⟩ t.toList = some ⟨n, none⟩

/-- A text in which every parenthesis has its mate and every quote is closed. -/
def IsBalanced (quotes : List Char) (t : String) : Prop := Moves quotes 0 0 t

instance (quotes : List Char) (m n : Nat) (t : String) : Decidable (Moves quotes m n t) :=
  inferInstanceAs (Decidable (_ = _))

instance (quotes : List Char) (t : String) : Decidable (IsBalanced quotes t) :=
  inferInstanceAs (Decidable (Moves quotes 0 0 t))

/-- The rest of a group, up to the parenthesis that closes it, and the text behind that. -/
def group? (quotes : List Char) (s : Place) : List Char → Option (List Char × List Char)
  | [] => none
  | c :: rest =>
    match step quotes s c with
    | some s => (group? quotes s rest).map fun (inside, after) => (c :: inside, after)
    | none => some ([], rest)

/-- Texts that all have to hold, nested to the left, with parentheses around either side. -/
def conjoined : List String → String
  | [] => ""
  | t :: rest => rest.foldl (fun all t => "(" ++ all ++ ") AND (" ++ t ++ ")") t

def clause (keyword : String) : List String → String
  | [] => ""
  | ts => " " ++ keyword ++ " " ++ conjoined ts

def members? (quotes : List Char) : Nat → List Char → Option (List String)
  | 0, [] => some []
  | 0, _ :: _ => none
  | 1, cs => some [String.ofList cs]
  | n + 2, cs => do
    let cs ← cs.dropPrefix? ['(']
    let (first, cs) ← group? quotes ⟨0, none⟩ cs
    let cs ← cs.dropPrefix? " AND (".toList
    let (last, cs) ← group? quotes ⟨0, none⟩ cs
    if cs.isEmpty then (members? quotes (n + 1) first).map (· ++ [String.ofList last]) else none

variable {quotes : List Char} {l m n : Nat} {t u : String}

theorem run_append (s : Place) (xs ys : List Char) :
    run quotes s (xs ++ ys) = (run quotes s xs).bind fun s => run quotes s ys := by
  induction xs generalizing s with
  | nil => rfl
  | cons c xs ih =>
    rw [List.cons_append, run, run]
    cases step quotes s c with
    | none => rfl
    | some s => exact ih s

theorem Moves.append (ht : Moves quotes l m t) (hu : Moves quotes m n u) : Moves quotes l n (t ++ u) := by
  rw [Moves, String.toList_append, run_append, ht]
  exact hu

private theorem step_deeper {s s' : Place} {c : Char} (h : step quotes s c = some s') (k : Nat) :
    step quotes ⟨s.depth + k, s.quote⟩ c = some ⟨s'.depth + k, s'.quote⟩ := by
  obtain ⟨depth, quote⟩ := s
  cases quote with
  | some q =>
    cases h
    rfl
  | none =>
    by_cases hquote : c ∈ quotes
    · simp only [step, if_pos hquote] at h ⊢
      cases h
      rfl
    by_cases hopen : c = '('
    · simp only [step, if_neg hquote, if_pos hopen] at h ⊢
      cases h
      rw [Nat.add_right_comm]
    by_cases hclose : c = ')'
    · simp only [step, if_neg hquote, if_neg hopen, if_pos hclose] at h ⊢
      cases depth with
      | zero => cases h
      | succ depth =>
        cases h
        rw [Nat.add_right_comm]
    · simp only [step, if_neg hquote, if_neg hopen, if_neg hclose] at h ⊢
      cases h
      rfl

private theorem run_deeper {s s' : Place} {cs : List Char} (h : run quotes s cs = some s') (k : Nat) :
    run quotes ⟨s.depth + k, s.quote⟩ cs = some ⟨s'.depth + k, s'.quote⟩ := by
  induction cs generalizing s with
  | nil =>
    cases h
    rfl
  | cons c cs ih =>
    rw [run] at h ⊢
    cases hstep : step quotes s c with
    | none => simp [hstep] at h
    | some s₁ =>
      rw [hstep] at h
      rw [step_deeper hstep k]
      exact ih h

/-- A text leads on in the same way where it stands deeper. -/
theorem Moves.deeper (h : Moves quotes m n t) (k : Nat) : Moves quotes (m + k) (n + k) t := run_deeper h k

theorem IsBalanced.level (h : IsBalanced quotes t) (depth : Nat) : Moves quotes depth depth t := by
  have hdeeper := Moves.deeper h depth
  rwa [Nat.zero_add] at hdeeper

theorem balanced_empty : IsBalanced quotes "" := rfl

theorem moves_of_free (h : ∀ c ∈ t.toList, c ∉ quotes ∧ c ≠ '(' ∧ c ≠ ')') (depth : Nat) :
    Moves quotes depth depth t := by
  rw [Moves]
  generalize t.toList = cs at h
  induction cs with
  | nil => rfl
  | cons c cs ih =>
    obtain ⟨⟨hquote, hopen, hclose⟩, hrest⟩ := List.forall_mem_cons.mp h
    rw [run]
    simp only [step, hquote, hopen, hclose, if_false]
    exact ih hrest

/-- Behind a quote, up to the next one like it. -/
theorem run_quoted {q : Char} {cs : List Char} (h : q ∉ cs) (rest : List Char) :
    run quotes ⟨0, some q⟩ (cs ++ q :: rest) = run quotes ⟨0, none⟩ rest := by
  induction cs with
  | nil => simp [run, step]
  | cons c cs ih =>
    have hne : c ≠ q := (List.ne_of_not_mem_cons h).symm
    rw [List.cons_append, run]
    simp only [step, hne, if_false]
    exact ih (List.not_mem_of_not_mem_cons h)

def Plain (t : String) : Prop := (t.toList.all fun c => isWordingChar c && c != '(' && c != ')') = true

instance (t : String) : Decidable (Plain t) := inferInstanceAs (Decidable (_ = true))

theorem not_wording_of_marks (h : quotes ⊆ marks) : ∀ q ∈ quotes, isWordingChar q = false := by
  have hall : marks.all (fun q => !isWordingChar q) = true := by decide
  intro q hq
  simpa using List.all_eq_true.mp hall q (h hq)

section

variable (hquotes : ∀ q ∈ quotes, isWordingChar q = false)
include hquotes

private theorem not_mem_of_wording {c : Char} (hc : isWordingChar c = true) : c ∉ quotes := by
  intro hmem
  rw [hquotes c hmem] at hc
  cases hc

theorem moves_opening (depth : Nat) : Moves quotes depth (depth + 1) "(" := by
  have hquote : '(' ∉ quotes := not_mem_of_wording hquotes (by decide)
  show run quotes ⟨depth, none⟩ ['('] = _
  simp [run, step, hquote]

theorem moves_openings (depth n : Nat) :
    Moves quotes depth (depth + n) (String.ofList (List.replicate n '(')) := by
  induction n with
  | zero => rfl
  | succ n ih =>
    have hlast : String.ofList (List.replicate (n + 1) '(') = String.ofList (List.replicate n '(') ++ "(" := by
      rw [List.replicate_succ', String.ofList_append]
    rw [hlast]
    exact ih.append (moves_opening hquotes (depth + n))

theorem moves_closing (depth : Nat) : Moves quotes (depth + 1) depth ")" := by
  have hquote : ')' ∉ quotes := not_mem_of_wording hquotes (by decide)
  show run quotes ⟨depth + 1, none⟩ [')'] = _
  simp [run, step, hquote]

theorem moves_plain (ht : Plain t) (depth : Nat) : Moves quotes depth depth t := by
  have hall : ∀ c ∈ t.toList, c ∉ quotes ∧ c ≠ '(' ∧ c ≠ ')' := by
    intro c hc
    have hplain := List.all_eq_true.mp ht c hc
    simp only [Bool.and_eq_true, bne_iff_ne] at hplain
    exact ⟨not_mem_of_wording hquotes hplain.1.1, hplain.1.2, hplain.2⟩
  exact moves_of_free hall depth

private theorem moves_bracketed {depth : Nat} (h : Moves quotes (depth + 1) (depth + 1) t) :
    Moves quotes depth depth ("(" ++ t ++ ")") :=
  ((moves_opening hquotes depth).append h).append (moves_closing hquotes depth)

/-- A reader inside a group finds its end behind a balanced text. -/
theorem group?_of_run {s : Place} {cs : List Char} (h : run quotes s cs = some ⟨0, none⟩) (after : List Char) :
    group? quotes s (cs ++ ')' :: after) = some (cs, after) := by
  induction cs generalizing s with
  | nil =>
    have hquote : ')' ∉ quotes := not_mem_of_wording hquotes (by decide)
    cases h
    simp [group?, step, hquote]
  | cons c cs ih =>
    rw [run] at h
    rw [List.cons_append, group?]
    cases hstep : step quotes s c with
    | none => simp [hstep] at h
    | some s' =>
      rw [hstep] at h
      simp only [ih h, Option.map_some]

private theorem group?_of_balanced (h : IsBalanced quotes t) (after : List Char) :
    group? quotes ⟨0, none⟩ (t.toList ++ ')' :: after) = some (t.toList, after) :=
  group?_of_run hquotes h after

private theorem balanced_conjoined {ts : List String} (h : ∀ t ∈ ts, IsBalanced quotes t) :
    IsBalanced quotes (conjoined ts) := by
  cases ts with
  | nil => exact balanced_empty
  | cons t rest =>
    obtain ⟨ht, hrest⟩ := List.forall_mem_cons.mp h
    rw [conjoined]
    clear h
    induction rest generalizing t with
    | nil => exact ht
    | cons u rest ih =>
      obtain ⟨hu, hrest⟩ := List.forall_mem_cons.mp hrest
      refine ih (t := "(" ++ t ++ ") AND (" ++ u ++ ")") ?_ hrest
      have hleft := moves_bracketed hquotes (IsBalanced.level ht 1)
      have hright := moves_bracketed hquotes (IsBalanced.level hu 1)
      have hboth := (hleft.append (moves_plain hquotes (t := " AND ") (by decide) 0)).append hright
      have hjoint : "(" ++ t ++ ") AND (" ++ u ++ ")" =
          "(" ++ t ++ ")" ++ " AND " ++ ("(" ++ u ++ ")") := by
        have hmiddle : ") AND (" = ")" ++ " AND " ++ "(" := by decide
        rw [hmiddle]
        simp only [String.append_assoc]
      rw [hjoint]
      exact hboth

/-- Members that are balanced are found again: none of them reaches out of its parentheses. -/
theorem members?_conjoined {ts : List String} (h : ∀ t ∈ ts, IsBalanced quotes t) :
    members? quotes ts.length (conjoined ts).toList = some ts := by
  induction ts using List.reverseRecOn with
  | nil => rfl
  | append_singleton ts t ih =>
    obtain ⟨hts, ht⟩ := List.forall_mem_append.mp h
    have hlast : IsBalanced quotes t := ht t (List.mem_singleton_self t)
    cases ts with
    | nil => simp [conjoined, members?]
    | cons first rest =>
      have hfirst : IsBalanced quotes (conjoined (first :: rest)) := balanced_conjoined hquotes hts
      have htext : (conjoined (first :: rest ++ [t])).toList =
          '(' :: ((conjoined (first :: rest)).toList ++
            ')' :: (" AND (".toList ++ (t.toList ++ ')' :: []))) := by
        simp [conjoined, List.foldl_append, String.toList_append]
      have hlength : (first :: rest ++ [t]).length = rest.length + 2 := by simp
      have hdrop (p cs : List Char) : (p ++ cs).dropPrefix? p = some cs :=
        List.dropPrefix?_append_of_beq cs (beq_self_eq_true p)
      have hopen := hdrop ['('] ((conjoined (first :: rest)).toList ++
        ')' :: (" AND (".toList ++ (t.toList ++ ')' :: [])))
      rw [List.singleton_append] at hopen
      rw [htext, hlength, members?, hopen]
      simp only [Option.bind_eq_bind, Option.bind_some, group?_of_balanced hquotes hfirst, hdrop,
        group?_of_balanced hquotes hlast]
      have hrest := ih hts
      rw [List.length_cons] at hrest
      rw [hrest]
      simp

end

end EntitySql.Grouping
