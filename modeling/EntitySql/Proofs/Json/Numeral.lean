import EntitySql.Json.Printer
import EntitySql.Json.Reader
import Mathlib.Algebra.Ring.Int.Defs
import Mathlib.Logic.Basic

namespace EntitySql.Json

/-- A text that cannot go on with a numeral. -/
def Stops (rest : List Char) : Prop :=
  ∀ c tail, rest = c :: tail → digitValue? c = none ∧ c ≠ '.' ∧ c ≠ 'e' ∧ c ≠ 'E'

theorem stops_nil : Stops [] := nofun

theorem stops_cons {c : Char} (h : digitValue? c = none ∧ c ≠ '.' ∧ c ≠ 'e' ∧ c ≠ 'E') (tail : List Char) :
    Stops (c :: tail) := by
  rintro c' tail' ⟨⟩
  exact h

variable {rest : List Char}

private theorem readDigits_of_stops (h : Stops rest) : readDigits rest = ([], rest) := by
  cases rest with
  | nil => rfl
  | cons c tail =>
    have hc := (h c tail rfl).1
    simp only [readDigits, hc]

/-- Digits are read up to where they end, or go on with what follows. -/
theorem readDigits_append (cs rest : List Char) :
    readDigits (cs ++ rest) =
      if (readDigits cs).2 = [] then ((readDigits cs).1 ++ (readDigits rest).1, (readDigits rest).2)
      else ((readDigits cs).1, (readDigits cs).2 ++ rest) := by
  induction cs with
  | nil => simp [readDigits]
  | cons c cs ih =>
    rw [List.cons_append, readDigits, readDigits]
    cases hc : digitValue? c with
    | none => simp
    | some d =>
      simp only [ih]
      split
      · simp
      · simp

private theorem readDigits_stopped (h : Stops rest) (cs : List Char) :
    readDigits (cs ++ rest) = ((readDigits cs).1, (readDigits cs).2 ++ rest) := by
  rw [readDigits_append, readDigits_of_stops h]
  split
  · rename_i hend
    simp [hend]
  · rfl

def readFraction (cs : List Char) : Option (Option (List Nat) × List Char) :=
  match cs with
  | '.' :: rest =>
    let (ds, after) := readDigits rest
    if ds.isEmpty then none else some (some ds, after)
  | _ => some (none, cs)

def readExponentDigits (minus : Bool) (rest : List Char) : Option (Option (Bool × List Nat) × List Char) :=
  let (ds, after) := readDigits rest
  if ds.isEmpty then none else some (some (minus, ds), after)

def readSigned (cs : List Char) : Option (Option (Bool × List Nat) × List Char) :=
  match cs with
  | '+' :: rest => readExponentDigits false rest
  | '-' :: rest => readExponentDigits true rest
  | rest => readExponentDigits false rest

def readExponent (cs : List Char) : Option (Option (Bool × List Nat) × List Char) :=
  match cs with
  | e :: rest => if e = 'e' || e = 'E' then readSigned rest else some (none, cs)
  | [] => some (none, cs)

private theorem readFraction_point (tail : List Char) :
    readFraction ('.' :: tail) =
      if (readDigits tail).1.isEmpty then none else some (some (readDigits tail).1, (readDigits tail).2) := rfl

private theorem readFraction_of_ne {cs : List Char} (h : ∀ tail, cs ≠ '.' :: tail) : readFraction cs = some
    (none, cs) := by
  unfold readFraction
  split
  · exact absurd rfl (h _)
  · rfl

private theorem readSigned_of_ne {cs : List Char} (hplus : ∀ tail, cs ≠ '+' :: tail)
    (hminus : ∀ tail, cs ≠ '-' :: tail) :
    readSigned cs = readExponentDigits false cs := by
  unfold readSigned
  split
  · exact absurd rfl (hplus _)
  · exact absurd rfl (hminus _)
  · rfl

/-- A literal is digits, a fraction and an exponent. -/
theorem readLiteral_eq (negative : Bool) (cs : List Char) :
    readLiteral negative cs =
      if (readDigits cs).1.isEmpty || ((readDigits cs).1.head? = some 0 && (readDigits cs).1.length ≠ 1) then none
      else do
        let (fraction, cs') ← readFraction (readDigits cs).2
        let (exponent, cs') ← readExponent cs'
        return (⟨negative, (readDigits cs).1, fraction, exponent⟩, cs') := by
  have hexponent (whole : List Nat) (fraction : Option (List Nat)) (after : List Char) :
      (match after with
        | e :: rest =>
          if e = 'e' || e = 'E' then
            match rest with
            | '+' :: rest => readExponentDigits false rest >>= fun x => pure (Literal.mk negative whole fraction x.1, x.2)
            | '-' :: rest => readExponentDigits true rest >>= fun x => pure (Literal.mk negative whole fraction x.1, x.2)
            | rest => readExponentDigits false rest >>= fun x => pure (Literal.mk negative whole fraction x.1, x.2)
          else pure (Literal.mk negative whole fraction none, after)
        | [] => pure (Literal.mk negative whole fraction none, after)) =
      readExponent after >>= fun x => pure (Literal.mk negative whole fraction x.1, x.2) := by
    cases after with
    | nil => rfl
    | cons e rest =>
      dsimp only [readExponent]
      split
      · split
        · rfl
        · rfl
        · rename_i hplus hminus
          rw [readSigned_of_ne hplus hminus]
      · rfl
  unfold readLiteral
  rcases readDigits cs with ⟨whole, after⟩
  dsimp only
  split
  · rfl
  split
  · rename_i tail
    rw [readFraction_point]
    rcases readDigits tail with ⟨ds, after⟩
    dsimp only
    split
    · rfl
    · exact hexponent whole (some ds) after
  · rename_i hpoint
    rw [readFraction_of_ne hpoint]
    exact hexponent whole none after

def numbered (r : Literal × List Char) : Option (Json × List Char) :=
  r.1.number?.map fun n => (.number n, r.2)

theorem readNumber_minus (cs : List Char) : readNumber ('-' :: cs) = (readLiteral true cs).bind numbered := by
  unfold readNumber
  split
  · rename_i tail heq
    cases heq
    cases readLiteral true cs with
    | none => rfl
    | some r => cases hnumber : r.1.number? <;> simp [numbered, hnumber]
  · rename_i hminus
    exact absurd rfl (hminus cs)

theorem readNumber_of_ne {cs : List Char} (h : ∀ tail, cs ≠ '-' :: tail) :
    readNumber cs = (readLiteral false cs).bind numbered := by
  unfold readNumber
  split
  · exact absurd rfl (h _)
  · cases readLiteral false cs with
    | none => rfl
    | some r => cases hnumber : r.1.number? <;> simp [numbered, hnumber]

section Context

variable {cs after : List Char} (h : Stops rest)

include h

private theorem readExponentDigits_append {minus : Bool} {x : Option (Bool × List Nat)}
    (hread : readExponentDigits minus cs = some (x, after)) :
    readExponentDigits minus (cs ++ rest) = some (x, after ++ rest) := by
  unfold readExponentDigits at hread ⊢
  rw [readDigits_stopped h]
  dsimp only at hread ⊢
  split at hread
  · cases hread
  · rename_i hsome
    cases hread
    rw [if_neg hsome]

private theorem readSigned_append {x : Option (Bool × List Nat)} (hread : readSigned cs = some (x, after)) :
    readSigned (cs ++ rest) = some (x, after ++ rest) := by
  cases cs with
  | nil => cases hread
  | cons s tail =>
    by_cases hplus : s = '+'
    · subst hplus
      exact readExponentDigits_append h hread
    by_cases hminus : s = '-'
    · subst hminus
      exact readExponentDigits_append h hread
    rw [readSigned_of_ne (by simp [hplus]) (by simp [hminus])] at hread
    rw [List.cons_append, readSigned_of_ne (by simp [hplus]) (by simp [hminus]), ← List.cons_append]
    exact readExponentDigits_append h hread

private theorem readExponent_append {x : Option (Bool × List Nat)} (hread : readExponent cs = some (x, after)) :
    readExponent (cs ++ rest) = some (x, after ++ rest) := by
  cases cs with
  | nil =>
    cases hread
    cases rest with
    | nil => rfl
    | cons c tail =>
      obtain ⟨-, -, hsmall, hlarge⟩ := h c tail rfl
      simp [readExponent, hsmall, hlarge]
  | cons e tail =>
    simp only [readExponent, List.cons_append] at hread ⊢
    split at hread
    · rename_i hmark
      rw [if_pos hmark]
      exact readSigned_append h hread
    · rename_i hmark
      cases hread
      rw [if_neg hmark]
      rfl

private theorem readFraction_append {x : Option (List Nat)} (hread : readFraction cs = some (x, after)) :
    readFraction (cs ++ rest) = some (x, after ++ rest) := by
  by_cases hpoint : ∃ tail, cs = '.' :: tail
  · obtain ⟨tail, rfl⟩ := hpoint
    rw [readFraction_point] at hread
    rw [List.cons_append, readFraction_point, readDigits_stopped h]
    split at hread
    · cases hread
    · rename_i hsome
      cases hread
      rw [if_neg hsome]
  · have hcs : ∀ tail, cs ≠ '.' :: tail := fun tail heq => hpoint ⟨tail, heq⟩
    have hboth : ∀ tail, cs ++ rest ≠ '.' :: tail := by
      intro tail heq
      cases cs with
      | nil => exact (h '.' tail heq).2.1 rfl
      | cons c cs =>
        cases heq
        exact hcs cs rfl
    rw [readFraction_of_ne hcs] at hread
    cases hread
    exact readFraction_of_ne hboth

private theorem readLiteral_append {negative : Bool} {l : Literal} (hread : readLiteral negative cs = some (l, after)) :
    readLiteral negative (cs ++ rest) = some (l, after ++ rest) := by
  rw [readLiteral_eq] at hread
  rw [readLiteral_eq, readDigits_stopped h]
  dsimp only
  split at hread
  · cases hread
  · rename_i hwhole
    obtain ⟨⟨fraction, cs'⟩, hfraction, hread⟩ := Option.bind_eq_some_iff.mp hread
    obtain ⟨⟨exponent, cs''⟩, hexponent, hread⟩ := Option.bind_eq_some_iff.mp hread
    cases hread
    rw [if_neg hwhole, readFraction_append h hfraction]
    simp only [Option.bind_eq_bind, Option.bind_some, readExponent_append h hexponent]
    rfl

private theorem numbered_append {negative : Bool} {j : Json}
    (hread : (readLiteral negative cs).bind numbered = some (j, after)) :
    (readLiteral negative (cs ++ rest)).bind numbered = some (j, after ++ rest) := by
  obtain ⟨⟨l, cs'⟩, hliteral, hnumber⟩ := Option.bind_eq_some_iff.mp hread
  obtain ⟨n, hn, hj⟩ := Option.map_eq_some_iff.mp hnumber
  cases hj
  rw [readLiteral_append h hliteral, Option.bind_some, numbered, hn, Option.map_some]

/-- A numeral is read alike alone and before what cannot go on with it. -/
theorem readNumber_append {j : Json} (hread : readNumber cs = some (j, after)) :
    readNumber (cs ++ rest) = some (j, after ++ rest) := by
  by_cases hminus : ∃ tail, cs = '-' :: tail
  · obtain ⟨tail, rfl⟩ := hminus
    rw [readNumber_minus] at hread
    rw [List.cons_append, readNumber_minus]
    exact numbered_append h hread
  · have hcs : ∀ tail, cs ≠ '-' :: tail := fun tail heq => hminus ⟨tail, heq⟩
    have hboth : ∀ tail, cs ++ rest ≠ '-' :: tail := by
      intro tail heq
      cases cs with
      | nil => cases hread
      | cons c cs =>
        cases heq
        exact hcs cs rfl
    rw [readNumber_of_ne hcs] at hread
    rw [readNumber_of_ne hboth]
    exact numbered_append h hread

end Context

private theorem digitValue?_digit : ∀ d < 10, digitValue? (Char.ofNat (48 + d)) = some d := by
  decide

private theorem digitsValue_append_singleton (ds : List Nat) (d : Nat) :
    digitsValue (ds ++ [d]) = digitsValue ds * 10 + d := by
  simp [digitsValue]

/-- The digits of a number are its digits, without a zero before them. -/
theorem readDigits_decimalDigits (n : Nat) : ∃ ds, readDigits (Shortest.decimalDigits n) = (ds, []) ∧
    digitsValue ds = n ∧ ds ≠ [] ∧ (ds.head? = some 0 → ds.length = 1) := by
  induction n using Shortest.decimalDigits.induct with
  | case1 n hn =>
    refine ⟨[n], ?_, by simp [digitsValue], List.cons_ne_nil _ _, fun _ => rfl⟩
    rw [Shortest.decimalDigits, dif_pos hn]
    simp only [readDigits, digitValue?_digit n hn]
  | case2 n hn ih =>
    obtain ⟨ds, hread, hvalue, hsome, hzero⟩ := ih
    have hlast : n % 10 < 10 := Nat.mod_lt n (by decide)
    refine ⟨ds ++ [n % 10], ?_, ?_, by simp, fun hhead => ?_⟩
    · rw [Shortest.decimalDigits, dif_neg hn, readDigits_append, hread, if_pos rfl]
      simp only [readDigits, digitValue?_digit _ hlast]
    · rw [digitsValue_append_singleton, hvalue]
      omega
    · -- A zero in front would be all of the digits before the last one.
      obtain ⟨first, tail, rfl⟩ := List.exists_cons_of_ne_nil hsome
      obtain rfl : first = 0 := Option.some.inj hhead
      obtain rfl : tail = [] := List.eq_nil_of_length_eq_zero (Nat.succ.inj (hzero rfl))
      simp only [digitsValue, List.foldl_cons, List.foldl_nil] at hvalue
      omega

def Within64 (n : Int) : Prop := -2 ^ 63 ≤ n ∧ n < 2 ^ 64

theorem within64_of_number? {l : Literal} {n : Int} (h : l.number? = some (.whole n)) : Within64 n := by
  unfold Literal.number? at h
  unfold Within64
  dsimp only at h
  split at h
  · rename_i hwhole
    simp only [Bool.and_eq_true, decide_eq_true_eq] at hwhole
    have hbits : digitsValue l.whole < 2 ^ 64 := hwhole.2
    split at h
    · cases h
      omega
    · split at h
      · rename_i hrange
        simp only [Bool.and_eq_true, decide_eq_true_eq] at hrange
        have hsmall : digitsValue l.whole ≤ 2 ^ 63 := hrange.2
        cases h
        omega
      · cases h
  · obtain ⟨x, -, hx⟩ := Option.map_eq_some_iff.mp h
    cases hx

private theorem readLiteral_decimalDigits (negative : Bool) (n : Nat) :
    ∃ ds, readLiteral negative (Shortest.decimalDigits n) = some (⟨negative, ds, none, none⟩, []) ∧
      digitsValue ds = n := by
  obtain ⟨ds, hread, hvalue, hsome, hzero⟩ := readDigits_decimalDigits n
  refine ⟨ds, ?_, hvalue⟩
  have hplain : (ds.isEmpty || (ds.head? = some 0 && ds.length ≠ 1)) = false := by
    simp only [Bool.or_eq_false_iff, Bool.and_eq_false_iff, List.isEmpty_eq_false_iff, decide_eq_false_iff_not]
    exact ⟨hsome, or_iff_not_imp_left.mpr fun hhead => by simpa using hzero (Classical.not_not.mp hhead)⟩
  rw [readLiteral_eq, hread]
  dsimp only
  rw [hplain]
  rfl

theorem readNumber_wholeText {n : Int} (h : Within64 n) : readNumber (wholeText n) = some (.number (.whole n), []) := by
  obtain ⟨hlow, hhigh⟩ := h
  have hsmall : n.natAbs < Nat.pow 2 64 := by
    rw [Nat.pow_eq]
    omega
  unfold wholeText
  split
  · rename_i hnegative
    obtain ⟨ds, hread, hvalue⟩ := readLiteral_decimalDigits true n.natAbs
    have hpositive : 0 < n.natAbs := by omega
    have hrange : n.natAbs ≤ Nat.pow 2 63 := by
      rw [Nat.pow_eq]
      omega
    have hsign : -(n.natAbs : Int) = n := by omega
    have hnumber : Literal.number? ⟨true, ds, none, none⟩ = some (.whole n) := by
      simp only [Literal.number?, hvalue, hsmall, hpositive, hrange, hsign, Option.isNone_none, decide_true,
        Bool.and_self, Bool.not_true, Bool.false_eq_true, if_true, if_false]
    rw [readNumber_minus, hread, Option.bind_some, numbered, hnumber, Option.map_some]
  · rename_i hnegative
    obtain ⟨ds, hread, hvalue⟩ := readLiteral_decimalDigits false n.natAbs
    have hsign : (n.natAbs : Int) = n := by omega
    have hdigits : ∀ tail, Shortest.decimalDigits n.natAbs ≠ '-' :: tail := by
      intro tail heq
      rw [heq] at hread
      cases hread
    have hnumber : Literal.number? ⟨false, ds, none, none⟩ = some (.whole n) := by
      simp only [Literal.number?, hvalue, hsmall, hsign, Option.isNone_none, decide_true, Bool.and_self,
        Bool.not_false, if_true]
    rw [readNumber_of_ne hdigits, hread, Option.bind_some, numbered, hnumber, Option.map_some]

end EntitySql.Json
