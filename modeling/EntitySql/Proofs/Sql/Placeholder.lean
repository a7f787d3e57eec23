import EntitySql.Proofs.Sql.Argument
import Mathlib.Data.List.Chain

namespace EntitySql

/-- Whether a placeholder opens at a character, given the character after it: where placeholders begin,
and where arguments are numbered only before a digit. -/
def Spelling.opens (s : Spelling) (c : Char) (next : Option Char) : Bool :=
  match (s.placeholder 1).toList with
  | [] => false
  | [mark] => c == mark
  | mark :: _ => c == mark && next.any Char.isDigit

def Spelling.countIn (s : Spelling) : List Char → Nat
  | [] => 0
  | c :: rest => (s.opens c rest.head?).toNat + s.countIn rest

def Spelling.placeholders (s : Spelling) (text : String) : Nat := s.countIn text.toList

namespace Spelling

variable {s : Spelling}

private theorem opens_congr {c : Char} {next other : Option Char}
    (h : next.any Char.isDigit = other.any Char.isDigit) : s.opens c next = s.opens c other := by
  unfold opens
  split
  · rfl
  · rfl
  · rw [h]

/-- Two texts hold their placeholders, unless the second one begins with a digit. -/
theorem countIn_append (xs : List Char) {ys : List Char}
    (hy : ys.head?.any Char.isDigit = false) :
    s.countIn (xs ++ ys) = s.countIn xs + s.countIn ys := by
  induction xs with
  | nil => simp [countIn]
  | cons c rest ih =>
    have hopens : s.opens c (rest ++ ys).head? = s.opens c rest.head? := by
      cases rest with
      | nil => exact opens_congr (by simpa using hy)
      | cons d rest => rfl
    rw [List.cons_append, countIn, countIn, hopens, ih, Nat.add_assoc]

/-- What a way to spell names and placeholders has to keep apart for placeholders to be counted. -/
structure Distinct (s : Spelling) : Prop where
  mark {c : Char} {next : Option Char} (h : s.opens c next = true) : c = '?' ∨ c = '$'
  quote : s.quote ≠ '?' ∧ s.quote ≠ '$' ∧ s.quote.isDigit = false
  head (n : Nat) (rest : List Char) : ((s.placeholder n).toList ++ rest).head?.any Char.isDigit = false
  bound (n : Nat) (rest : List Char) :
    s.countIn ((s.placeholder n).toList ++ rest) = s.countIn rest + 1

theorem toList_questionMark (n : Nat) : (Dialect.questionMark n).toList = ['?'] := by
  simp [Dialect.questionMark]

theorem toList_dollar (n : Nat) : (Dialect.dollar n).toList = '$' :: Nat.toDigits 10 n := by
  simp [Dialect.dollar]

private theorem opens_question (quote c : Char) (next : Option Char) :
    opens ⟨quote, Dialect.questionMark⟩ c next = (c == '?') := by
  simp only [opens, toList_questionMark]

private theorem opens_dollar (quote c : Char) (next : Option Char) :
    opens ⟨quote, Dialect.dollar⟩ c next = (c == '$' && next.any Char.isDigit) := by
  have h : Nat.toDigits 10 1 = ['1'] := by decide
  simp only [opens, toList_dollar, h]

theorem isDigit_of_mem_dollar {n : Nat} {d : Char} (hd : d ∈ Nat.toDigits 10 n) :
    d.isDigit = true :=
  Nat.isDigit_of_mem_toDigits (by decide) (by decide) hd

private theorem countIn_digits {quote : Char} {digits : List Char} (hd : ∀ d ∈ digits, d.isDigit = true)
    (rest : List Char) :
    countIn ⟨quote, Dialect.dollar⟩ (digits ++ rest) = countIn ⟨quote, Dialect.dollar⟩ rest := by
  induction digits with
  | nil => rfl
  | cons d digits ih =>
    have hne : (d == '$') = false := by
      rw [beq_eq_false_iff_ne]
      intro h
      have hdigit := hd d (by simp)
      rw [h] at hdigit
      exact absurd hdigit (by decide)
    rw [List.cons_append, countIn, opens_dollar, hne, ih fun e he => hd e (by simp [he])]
    simp

private theorem distinct_question {quote : Char} (hq : quote ≠ '?' ∧ quote ≠ '$' ∧ quote.isDigit = false) :
    Distinct ⟨quote, Dialect.questionMark⟩ where
  mark h := by
    rw [opens_question, beq_iff_eq] at h
    exact .inl h
  quote := hq
  head n rest := by
    rw [toList_questionMark]
    rfl
  bound n rest := by
    rw [toList_questionMark, List.cons_append, List.nil_append, countIn, opens_question, Nat.add_comm]
    rfl

private theorem distinct_dollar {quote : Char} (hq : quote ≠ '?' ∧ quote ≠ '$' ∧ quote.isDigit = false) :
    Distinct ⟨quote, Dialect.dollar⟩ where
  mark h := by
    rw [opens_dollar, Bool.and_eq_true, beq_iff_eq] at h
    exact .inr h.1
  quote := hq
  head n rest := by
    rw [toList_dollar]
    rfl
  bound n rest := by
    have hdigits : ∀ d ∈ Nat.toDigits 10 n, d.isDigit = true := fun d hd => isDigit_of_mem_dollar hd
    have hnumber : ((Nat.toDigits 10 n ++ rest).head?.any Char.isDigit) = true := by
      cases hn : Nat.toDigits 10 n with
      | nil => exact absurd hn Nat.toDigits_ne_nil
      | cons d digits => simpa using hdigits d (by simp [hn])
    rw [toList_dollar, List.cons_append, countIn, opens_dollar, hnumber, countIn_digits hdigits,
      Nat.add_comm]
    rfl

private theorem distinct_of_given {d : Dialect} (hd : d ∈ Dialect.given) : Distinct d.spelling := by
  rcases Dialect.eq_of_given hd with rfl | rfl | rfl
  · exact distinct_question (by decide)
  · exact distinct_question (by decide)
  · exact distinct_dollar (by decide)

section

variable (hs : s.Distinct)
include hs

private theorem opens_of_ne {c : Char} (hq : c ≠ '?') (hd : c ≠ '$') (next : Option Char) :
    s.opens c next = false := by
  cases ho : s.opens c next with
  | false => rfl
  | true =>
    rcases hs.mark ho with h | h
    · exact absurd h hq
    · exact absurd h hd

private theorem countIn_cons_of_ne {c : Char} (hq : c ≠ '?') (hd : c ≠ '$') (rest : List Char) :
    s.countIn (c :: rest) = s.countIn rest := by
  rw [countIn, opens_of_ne hs hq hd]
  simp

private theorem countIn_quote (rest : List Char) : s.countIn (s.quote :: rest) = s.countIn rest :=
  countIn_cons_of_ne hs hs.quote.1 hs.quote.2.1 rest

private theorem countIn_segment (cs : List Char) : s.countIn (s.segment cs) = s.countIn cs := by
  have hend : [s.quote].head?.any Char.isDigit = false := hs.quote.2.2
  rw [segment, List.cons_append, countIn_quote hs, countIn_append cs hend, countIn_quote hs]
  simp [countIn]

/-- The quotes around the segments of a name are no placeholders. -/
theorem countIn_join_segments : ∀ parts : List (List Char),
    s.countIn (Text.join ['.'] (parts.map s.segment)) = s.countIn (Text.join ['.'] parts)
  | [] => rfl
  | [part] => countIn_segment hs part
  | part :: next :: rest => by
    have hpoint (tail : List Char) : ('.' :: tail).head?.any Char.isDigit = false := rfl
    have hdot (tail : List Char) : s.countIn ('.' :: tail) = s.countIn tail :=
      countIn_cons_of_ne hs (by decide) (by decide) tail
    have ih := countIn_join_segments (next :: rest)
    rw [List.map_cons, List.map_cons, Text.join, Text.join, List.append_assoc, List.append_assoc,
      List.singleton_append, List.singleton_append, countIn_append _ (hpoint _),
      countIn_append _ (hpoint _), hdot, hdot, countIn_segment hs, ← List.map_cons, ih]

private theorem placeholders_name (n : String) : s.placeholders (s.name n) = s.placeholders n := by
  rw [placeholders, placeholders, name, String.toList_ofList, countIn_join_segments hs, Text.join_split]

private theorem countIn_wording {t : String} (ht : Wording t) (rest : List Char) :
    s.countIn (t.toList ++ rest) = s.countIn rest := by
  have hchars := (Wording.iff.mp ht).2
  generalize t.toList = cs at hchars
  induction cs with
  | nil => rfl
  | cons c cs ih =>
    have hc := hchars c (by simp)
    have hq : c ≠ '?' := by rintro rfl; revert hc; decide
    have hd : c ≠ '$' := by rintro rfl; revert hc; decide
    rw [List.cons_append, countIn_cons_of_ne hs hq hd, ih fun e he => hchars e (by simp [he])]

end

end Spelling

def Piece.isRaw : Piece → Bool
  | raw _ _ => true
  | _ => false

/-- Pieces as walks write them: only wording as text, and no fragment right after another. -/
structure Laid (ps : List Piece) : Prop where
  wording (t : String) (ht : .text t ∈ ps) : Wording t
  apart : ps.IsChain fun p q => p.isRaw = true → q.isRaw = false

namespace Spelling

variable {s : Spelling}

theorem toList_name (n : String) : ∃ rest, (s.name n).toList = s.quote :: rest := by
  obtain ⟨part, parts, hsplit⟩ := List.exists_cons_of_ne_nil (Text.split_ne_nil '.' n.toList)
  rw [name, String.toList_ofList, hsplit, List.map_cons]
  cases parts with
  | nil => exact ⟨_, rfl⟩
  | cons next rest => exact ⟨_, rfl⟩

theorem name_ends (n : String) : ∃ init, (s.name n).toList = init ++ [s.quote] := by
  have hjoin : ∀ parts, parts ≠ [] →
      ∃ init, Text.join ['.'] (parts.map s.segment) = init ++ [s.quote] := by
    intro parts
    induction parts with
    | nil => intro hne; exact absurd rfl hne
    | cons part rest ih =>
      intro _
      cases rest with
      | nil => exact ⟨s.quote :: part, rfl⟩
      | cons next rest =>
        obtain ⟨init, hinit⟩ := ih (by simp)
        refine ⟨s.segment part ++ ['.'] ++ init, ?_⟩
        rw [List.map_cons, List.map_cons, Text.join, ← List.map_cons, hinit]
        simp
  obtain ⟨init, hinit⟩ := hjoin _ (Text.split_ne_nil '.' n.toList)
  exact ⟨init, by rw [name, String.toList_ofList, hinit]⟩

private theorem not_isDigit_of_wording {t : String} (ht : Wording t) (rest : List Char) :
    (t.toList ++ rest).head?.any Char.isDigit = false := by
  obtain ⟨hne, hchars⟩ := Wording.iff.mp ht
  cases hcs : t.toList with
  | nil => exact absurd hcs hne
  | cons c cs =>
    have hc := hchars c (by simp [hcs])
    rw [isWordingChar, Bool.or_eq_true, List.contains_iff_mem] at hc
    rcases hc with hc | hc
    · have hZ : 'Z'.val.toNat = 90 := rfl
      have hA : 'A'.val.toNat = 65 := rfl
      have h9 : '9'.val.toNat = 57 := rfl
      have hupper : 'A'.val ≤ c.val ∧ c.val ≤ 'Z'.val := of_decide_eq_true hc
      simp only [UInt32.le_iff_toNat_le] at hupper
      simp only [List.cons_append, List.head?_cons, Option.any_some, Char.isDigit, ge_iff_le,
        UInt32.le_iff_toNat_le, Bool.and_eq_false_iff, decide_eq_false_iff_not]
      omega
    · simp only [List.mem_cons, List.not_mem_nil, or_false] at hc
      rcases hc with rfl | rfl | rfl | rfl | rfl | rfl | rfl | rfl | rfl | rfl <;> rfl

section

variable (hs : s.Distinct)
include hs

private theorem countIn_name (n : String) (rest : List Char) :
    s.countIn ((s.name n).toList ++ rest) = s.placeholders n + s.countIn rest := by
  obtain ⟨init, hinit⟩ := name_ends (s := s) n
  have hquote (tail : List Char) : (s.quote :: tail).head?.any Char.isDigit = false := hs.quote.2.2
  have hname : s.countIn init = s.placeholders n := by
    rw [← placeholders_name hs, placeholders, hinit, countIn_append init (hquote []),
      countIn_quote hs]
    rfl
  rw [hinit, List.append_assoc, List.cons_append, List.nil_append, countIn_append init (hquote rest),
    countIn_quote hs, hname]

/-- A text does not begin with a digit, unless a fragment stands first. -/
theorem head_text {ps : List Piece} (hps : Laid ps) (hfirst : ∀ p ∈ ps.head?, p.isRaw = false)
    (k : Nat) : ((s.text k ps).toList ++ [';']).head?.any Char.isDigit = false := by
  cases ps with
  | nil => rfl
  | cons p rest =>
    cases p with
    | text t =>
      rw [text, String.toList_append, List.append_assoc]
      exact not_isDigit_of_wording (hps.wording t (by simp)) _
    | name n =>
      obtain ⟨tail, htail⟩ := toList_name (s := s) n
      rw [text, String.toList_append, htail]
      exact hs.quote.2.2
    | bound v =>
      rw [text, String.toList_append, List.append_assoc]
      exact hs.head _ _
    | raw sql args => exact absurd (hfirst _ rfl) (by simp [Piece.isRaw])

/-- The placeholders of a text are the arguments of its pieces, if names have none and fragments have as
many as they have arguments. -/
theorem countIn_text {ps : List Piece} (hps : Laid ps)
    (hname : ∀ n, .name n ∈ ps → s.placeholders n = 0)
    (hraw : ∀ sql args, .raw sql args ∈ ps → s.placeholders sql = args.length) (k : Nat) :
    s.countIn ((s.text k ps).toList ++ [';']) = (argsOf ps).length := by
  induction ps generalizing k with
  | nil => exact countIn_cons_of_ne hs (by decide) (by decide) []
  | cons p rest ih =>
    have hrest : Laid rest :=
      ⟨fun t ht => hps.wording t (by simp [ht]), hps.apart.of_cons⟩
    have hcount (k : Nat) : s.countIn ((s.text k rest).toList ++ [';']) = (argsOf rest).length :=
      ih hrest (fun n hn => hname n (by simp [hn])) (fun sql args hm => hraw sql args (by simp [hm])) k
    have hargs : (argsOf (p :: rest)).length = p.args.length + (argsOf rest).length := by
      simp [argsOf]
    rw [hargs]
    cases p with
    | text t =>
      rw [text, String.toList_append, List.append_assoc,
        countIn_wording hs (hps.wording t (by simp)), hcount]
      simp [Piece.args]
    | name n =>
      rw [text, String.toList_append, List.append_assoc, countIn_name hs, hname n (by simp), hcount]
      simp [Piece.args]
    | bound v =>
      rw [text, String.toList_append, List.append_assoc, hs.bound, hcount, Nat.add_comm]
      rfl
    | raw sql args =>
      -- A sign at the end of a fragment would take a digit after it; no digit can stand there.
      have hfirst : ∀ q ∈ rest.head?, q.isRaw = false := by
        intro q hq
        exact (List.isChain_cons.mp hps.apart).1 q hq rfl
      rw [text, String.toList_append, List.append_assoc,
        countIn_append _ (head_text hs hrest hfirst _), hcount]
      exact congrArg (· + _) (hraw sql args (by simp))

end

end Spelling

namespace Laid

private theorem nil : Laid [] := ⟨nofun, .nil⟩

private theorem append {xs ys : List Piece} (hx : Laid xs) (hy : Laid ys)
    (hseam : ∀ q ∈ ys.head?, q.isRaw = false) : Laid (xs ++ ys) := by
  refine ⟨?_, ?_⟩
  · intro t ht
    rcases List.mem_append.mp ht with ht | ht
    · exact hx.wording t ht
    · exact hy.wording t ht
  · exact List.isChain_append.mpr ⟨hx.apart, hy.apart, fun _ _ q hq _ => hseam q hq⟩

private theorem textFirst {t : String} {ys : List Piece} (ht : Wording t) (hy : Laid ys) :
    Laid (.text t :: ys) := by
  refine ⟨?_, ?_⟩
  · intro u hu
    rcases List.mem_cons.mp hu with hu | hu
    · cases hu
      exact ht
    · exact hy.wording u hu
  · exact List.isChain_cons.mpr ⟨fun _ _ hraw => absurd hraw (by simp [Piece.isRaw]), hy.apart⟩

end Laid

/-- Walks lay their pieces out, also those that fail. -/
theorem Emission.composed_laid (lookup : TypeId → Except Error Model) :
    Composed lookup (fun _ => True) fun e => Laid e.pieces where
  failure _ := trivial
  quiet he := by
    rw [he.pieces]
    exact .nil
  piece p hp := ⟨fun t ht => hp t (List.mem_singleton.mp ht).symm, .singleton p⟩
  afterQuiet {α e f} he hf := by
    rw [bind_def]
    cases ho : e.outcome with
    | error err =>
      rw [andThen_error ho]
      change Laid e.pieces
      rw [he.pieces]
      exact .nil
    | ok a =>
      rw [andThen_ok ho]
      change Laid (e.pieces ++ _)
      rw [he.pieces]
      exact hf a
  afterText hs hn := .textFirst hs hn
  beforeLed {e next} he hn hled := by
    rw [bind_def]
    cases ho : e.outcome with
    | error err =>
      rw [andThen_error ho]
      exact he
    | ok a =>
      rw [andThen_ok ho]
      refine he.append hn fun q hq => ?_
      obtain ⟨t, rfl⟩ := hled q hq
      rfl

/-- Where the parts of a statement stand: the text of each among the texts of the others, and its
arguments among theirs. A bound value has the placeholder of its own number. -/
structure Spelling.Places (s : Spelling) (ps : List Piece) (st : Statement) : Prop where
  sql : st.sql = s.text 0 ps ++ ";"
  args : st.args = argsOf ps
  bound {before after : List Piece} {v : Value} (h : ps = before ++ .bound v :: after) :
    st.args[(argsOf before).length]? = some v ∧
      st.sql = s.text 0 before ++ (s.placeholder ((argsOf before).length + 1) ++
        (s.text ((argsOf before).length + 1) after ++ ";"))
  raw {before after : List Piece} {sql : String} {args : List Value}
      (h : ps = before ++ .raw sql args :: after) :
    st.args = argsOf before ++ (args ++ argsOf after) ∧
      st.sql = s.text 0 before ++ (sql ++ (s.text ((argsOf before).length + args.length) after ++ ";"))

private theorem Spelling.places_statement (s : Spelling) (ps : List Piece) : s.Places ps (s.statement ps) where
  sql := rfl
  args := rfl
  bound {before after v} h := by
    subst h
    have hargs : argsOf (before ++ .bound v :: after) = argsOf before ++ v :: argsOf after := by
      simp [argsOf, Piece.args]
    have hsql := s.text_append 0 before (.bound v :: after)
    refine ⟨?_, ?_⟩
    · rw [statement, hargs, List.getElem?_append_right (Nat.le_refl _)]
      simp
    · rw [statement, hsql, Nat.zero_add, text, String.append_assoc, String.append_assoc]
  raw {before after sql args} h := by
    subst h
    have hargs : argsOf (before ++ .raw sql args :: after) = argsOf before ++ (args ++ argsOf after) := by
      simp [argsOf, Piece.args]
    have hsql := s.text_append 0 before (.raw sql args :: after)
    refine ⟨hargs, ?_⟩
    rw [statement, hsql, Nat.zero_add, text, String.append_assoc, String.append_assoc]

namespace Compiler

variable {c : Compiler} {cmd : Command} {st : Statement}

/-- The arguments of a statement are the values that its command binds, in the order of its text. Each
bound value has the placeholder of its own number, and nothing else is a placeholder. -/
theorem arguments_of_build (hd : c.dialect ∈ Dialect.given) (hk : cmd.kind ≠ .raw)
    (h : c.build cmd = .ok st) :
    c.arguments cmd = .ok st.args ∧
      c.dialect.spelling.Places (c.emit cmd).pieces st ∧
      (c.dialect = .postgres → ∀ k, c.dialect.spelling.placeholder k = "$" ++ toString k) ∧
      (∀ t, .text t ∈ (c.emit cmd).pieces → c.dialect.spelling.placeholders t = 0) ∧
      ((∀ n, .name n ∈ (c.emit cmd).pieces → c.dialect.spelling.placeholders n = 0) →
        (∀ sql args, .raw sql args ∈ (c.emit cmd).pieces →
          c.dialect.spelling.placeholders sql = args.length) →
        c.dialect.spelling.placeholders st.sql = st.args.length) := by
  obtain ⟨ho, rfl⟩ := build_eq_ok hk h
  have hlaid : Laid (c.emit cmd).pieces :=
    composed_emit (Emission.composed_laid c.lookup) (fun _ _ => trivial) cmd (fun _ => hd)
      fun _ _ _ _ => trivial
  have hdistinct : c.dialect.spelling.Distinct := Spelling.distinct_of_given hd
  have hargs : c.arguments cmd = .ok (argsOf (c.emit cmd).pieces) :=
    carries_emit cmd hk (fun _ => Dialect.carrying_of_given hd) () ho
  refine ⟨hargs, Spelling.places_statement _ _, ?_, ?_, ?_⟩
  · intro hpostgres k
    rw [hpostgres]
    rfl
  · intro t ht
    have hcount := Spelling.countIn_wording hdistinct (hlaid.wording t ht) []
    rw [List.append_nil] at hcount
    exact hcount
  · intro hname hraw
    have hcount := Spelling.countIn_text hdistinct hlaid hname hraw 0
    rw [Spelling.placeholders, Spelling.statement, String.toList_append]
    exact hcount

/-- A numbered placeholder after a fragment with an argument of its own. -/
theorem arguments_of_build_delete :
    let m : Model := ⟨"notes", .named "Note", [⟨"score", "score", 0, 8, ⟨.integer .i64⟩, 0⟩]⟩
    let c : Compiler := ⟨.postgres, .byOffset, fun _ => .ok m⟩
    let fragment : RawSql := ⟨"score < $1", [.bool true]⟩
    let cmd : Command :=
      .delete ⟨.named "Note", [.raw fragment, (Column.named "score").compare .eq (.value .null)]⟩
    ∃ st, c.build cmd = .ok st ∧ c.arguments cmd = .ok st.args ∧ st.args = [.bool true, .null] ∧
      c.dialect.spelling.placeholders st.sql = 2 := by
  intro m c fragment cmd
  have hd : c.dialect ∈ Dialect.given := by simp [Dialect.given, c]
  have hk : cmd.kind ≠ .raw := by decide
  have hbuild : c.build cmd = .ok (c.dialect.spelling.statement (c.emit cmd).pieces) := rfl
  obtain ⟨hargs, hplaces, -, -, hcount⟩ := arguments_of_build hd hk hbuild
  have hpieces : (c.emit cmd).pieces =
      [.text "DELETE FROM ", .name "notes", .text " WHERE ", .text "(",
        .raw "score < $1" [.bool true], .text ")", .text " AND ", .text "(",
        .name "score", .text " = ", .bound .null, .text ")"] := by decide
  refine ⟨_, hbuild, hargs, hplaces.args, hcount ?_ ?_⟩
  · intro n hn
    rw [hpieces] at hn
    have hname : n = "notes" ∨ n = "score" := by simpa using hn
    rcases hname with rfl | rfl <;> decide
  · intro sql args hraw
    rw [hpieces] at hraw
    have hfragment : sql = "score < $1" ∧ args = [.bool true] := by simpa using hraw
    rw [hfragment.1, hfragment.2]
    decide

end Compiler

end EntitySql
