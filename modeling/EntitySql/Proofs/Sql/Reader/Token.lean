import EntitySql.Proofs.Sql.Placeholder

namespace EntitySql.Reader

inductive Token where
  | name (s : String)
  | placeholder
  | binary (op : BinaryOp)
  | not
  | aggregate (f : AggregateFunction)
  | opening
  | closing
  | comma
  deriving DecidableEq, Repr

def keyword? : List Char → Option Token
  | ['A', 'N', 'D'] => some (.binary .and)
  | ['O', 'R'] => some (.binary .or)
  | ['N', 'O', 'T'] => some .not
  | ['I', 'N'] => some (.binary .isIn)
  | ['L', 'I', 'K', 'E'] => some (.binary .like)
  | ['C', 'O', 'U', 'N', 'T'] => some (.aggregate .count)
  | ['S', 'U', 'M'] => some (.aggregate .sum)
  | ['A', 'V', 'G'] => some (.aggregate .avg)
  | ['M', 'A', 'X'] => some (.aggregate .max)
  | ['M', 'I', 'N'] => some (.aggregate .min)
  | _ => none

def sign? : List Char → Option Token
  | ['='] => some (.binary .eq)
  | ['!', '='] => some (.binary .ne)
  | ['<', '>'] => some (.binary .ne)
  | ['>'] => some (.binary .gt)
  | ['>', '='] => some (.binary .ge)
  | ['<'] => some (.binary .lt)
  | ['<', '='] => some (.binary .le)
  | _ => none

def isSign (c : Char) : Bool := c == '=' || c == '!' || c == '<' || c == '>'

/-- What the scanner is in the middle of, with the characters read so far. -/
inductive Mode where
  | gap
  | word (letters : List Char)
  | sign (signs : List Char)
  | quoted (cs : List Char)
  /-- After a quote that ends a name, unless the name goes on. -/
  | closed (cs : List Char)
  | point (cs : List Char)
  | dollar
  | number
  deriving DecidableEq, Repr

namespace Mode

/-- The mode after a character that belongs to what is being read. A quote stands for itself if it is
doubled. -/
def absorb (q : Char) : Mode → Char → Option Mode
  | gap, _ => none
  | word letters, c => if c.isUpper then some (word (letters ++ [c])) else none
  | sign signs, c => if isSign c then some (sign (signs ++ [c])) else none
  | quoted cs, c => some (if c = q then closed cs else quoted (cs ++ [c]))
  | closed cs, c =>
    if c = q then some (quoted (cs ++ [c])) else if c = '.' then some (point cs) else none
  | point cs, c => if c = q then some (quoted (cs ++ ['.'])) else none
  | dollar, c => if c.isDigit then some number else none
  | number, c => if c.isDigit then some number else none

/-- The tokens read when nothing more belongs to them. -/
def finish : Mode → Option (List Token)
  | gap => some []
  | word letters => (keyword? letters).map ([·])
  | sign signs => (sign? signs).map ([·])
  | closed cs => some [.name (String.ofList cs)]
  | number => some [.placeholder]
  | quoted _ | point _ | dollar => none

end Mode

/-- The tokens that a character is, and the mode after it, where nothing is being read. -/
def start (q c : Char) : Option (List Token × Mode) :=
  if c = ' ' then some ([], .gap)
  else if c = '(' then some ([.opening], .gap)
  else if c = ')' then some ([.closing], .gap)
  else if c = ',' then some ([.comma], .gap)
  else if c = '?' then some ([.placeholder], .gap)
  else if c = '$' then some ([], .dollar)
  else if c.isUpper then some ([], .word [c])
  else if isSign c then some ([], .sign [c])
  else if c = q then some ([], .quoted [])
  else none

/-- The tokens of a text, for a quote around names. -/
def scan (q : Char) : Mode → List Char → Option (List Token)
  | m, [] => m.finish
  | m, c :: rest =>
    match m.absorb q c with
    | some m => scan q m rest
    | none =>
      match m.finish, start q c with
      | some ts, some (us, m) => (scan q m rest).map (ts ++ us ++ ·)
      | _, _ => none

/-- The characters that may stand right after a token. -/
def isDelimiter (c : Char) : Bool := c == ' ' || c == ')' || c == ','

/-- Characters that are read as tokens, whatever stands after them. -/
def Opens (q : Char) (cs : List Char) (ts : List Token) : Prop :=
  ∀ rest, scan q .gap (cs ++ rest) = (scan q .gap rest).map (ts ++ ·)

/-- Characters that are read as tokens, if no token goes on right after them. -/
def Lexes (q : Char) (cs : List Char) (ts : List Token) : Prop :=
  ∀ rest, (∀ c ∈ rest.head?, isDelimiter c) →
    scan q .gap (cs ++ rest) = (scan q .gap rest).map (ts ++ ·)

variable {q : Char} {cs ds : List Char} {ts us : List Token}

theorem Opens.lexes (h : Opens q cs ts) : Lexes q cs ts := fun rest _ => h rest

theorem Opens.nil : Opens q [] [] := by
  intro rest
  simp

theorem Opens.append (hc : Opens q cs ts) (hd : Lexes q ds us) : Lexes q (cs ++ ds) (ts ++ us) := by
  intro rest hrest
  rw [List.append_assoc, hc, hd rest hrest, Option.map_map]
  simp [Function.comp_def]

theorem Lexes.append (hc : Lexes q cs ts) (hd : Lexes q ds us)
    (hseam : ∀ c ∈ ds.head?, isDelimiter c) (hne : ds ≠ []) : Lexes q (cs ++ ds) (ts ++ us) := by
  intro rest hrest
  have hnext : ∀ c ∈ (ds ++ rest).head?, isDelimiter c := by
    intro c hmem
    cases ds with
    | nil => exact absurd rfl hne
    | cons d ds => exact hseam c hmem
  rw [List.append_assoc, hc _ hnext, hd rest hrest, Option.map_map]
  simp [Function.comp_def]

/-- What is being read ends where a character does not belong to it. -/
theorem scan_finish {m : Mode} (hm : m.finish = some ts) {rest : List Char}
    (hrest : ∀ c ∈ rest.head?, m.absorb q c = none) :
    scan q m rest = (scan q .gap rest).map (ts ++ ·) := by
  cases rest with
  | nil =>
    rw [scan, scan, hm]
    simp [Mode.finish]
  | cons c rest =>
    have hnone : m.absorb q c = none := hrest c rfl
    rw [scan, scan, hnone, hm]
    cases hs : start q c with
    | none => rfl
    | some r =>
      simp [Mode.absorb, Mode.finish, Function.comp_def]

theorem opens_opening : Opens q ['('] [.opening] := by
  intro rest
  rfl

theorem opens_closing : Opens q [')'] [.closing] := by
  intro rest
  rfl

theorem opens_comma : Opens q [',', ' '] [.comma] := by
  intro rest
  simp [scan, Mode.absorb, Mode.finish, start]

private theorem opens_question : Opens q ['?'] [.placeholder] := by
  intro rest
  rfl

theorem opens_binary (op : BinaryOp) : Opens q (" " ++ op.sql ++ " ").toList [.binary op] := by
  intro rest
  cases op <;>
    simp [BinaryOp.sql, scan, Mode.absorb, Mode.finish, start, isSign, keyword?, sign?,
      Function.comp_def]

theorem opens_not : Opens q ("NOT" ++ " ").toList [.not] := by
  intro rest
  simp [scan, Mode.absorb, Mode.finish, start, keyword?, Function.comp_def]

theorem opens_aggregate (f : AggregateFunction) :
    Opens q (f.sql ++ "(").toList [.aggregate f, .opening] := by
  intro rest
  cases f <;>
    simp [AggregateFunction.sql, scan, Mode.absorb, Mode.finish, start, keyword?, Function.comp_def]

def quotedRest (q : Char) : List Char → List (List Char) → List Char
  | part, [] => part ++ [q]
  | part, next :: rest => part ++ q :: '.' :: q :: quotedRest q next rest

private theorem scan_quoted (hcs : q ∉ cs) (acc rest : List Char) :
    scan q (.quoted acc) (cs ++ rest) = scan q (.quoted (acc ++ cs)) rest := by
  induction cs generalizing acc with
  | nil => simp
  | cons c cs ih =>
    have hne : c ≠ q := fun h => hcs (by simp [h])
    have hrest : q ∉ cs := fun h => hcs (by simp [h])
    rw [List.cons_append, scan]
    simp only [Mode.absorb, hne, if_false]
    rw [ih hrest]
    simp

private theorem scan_quotedRest (hpoint : q ≠ '.') (rest : List Char) : ∀ (parts : List (List Char))
    (part acc : List Char), q ∉ part → (∀ p ∈ parts, q ∉ p) →
    scan q (.quoted acc) (quotedRest q part parts ++ rest) =
      scan q (.closed (acc ++ Text.join ['.'] (part :: parts))) rest
  | [], part, acc, hpart, _ => by
    rw [quotedRest, List.append_assoc, scan_quoted hpart]
    simp [scan, Mode.absorb, Text.join]
  | next :: parts, part, acc, hpart, hparts => by
    have hnext : q ∉ next := hparts next (by simp)
    have hrest : ∀ p ∈ parts, q ∉ p := fun p hp => hparts p (by simp [hp])
    have ih := scan_quotedRest hpoint rest parts next (acc ++ part ++ ['.']) hnext hrest
    rw [quotedRest, List.append_assoc, scan_quoted hpart]
    simp only [List.cons_append, scan, Mode.absorb, if_true, hpoint.symm, if_false]
    rw [ih, Text.join]
    simp

private theorem join_segments (s : Spelling) : ∀ (parts : List (List Char)) (part : List Char),
    Text.join ['.'] ((part :: parts).map s.segment) = s.quote :: quotedRest s.quote part parts
  | [], part => rfl
  | next :: parts, part => by
    have ih := join_segments s parts next
    rw [List.map_cons] at ih
    rw [List.map_cons, List.map_cons, Text.join, ih, quotedRest, Spelling.segment]
    simp

/-- The quotes that the given dialects put around names. -/
def IsQuote (q : Char) : Prop := q = '"' ∨ q = '\x60'

theorem isQuote_of_given {d : Dialect} (hd : d ∈ Dialect.given) : IsQuote d.spelling.quote := by
  rcases Dialect.eq_of_given hd with rfl | rfl | rfl
  · exact .inl rfl
  · exact .inr rfl
  · exact .inl rfl

private theorem start_quote (hq : IsQuote q) : start q q = some ([], .quoted []) := by
  rcases hq with rfl | rfl <;> decide

private theorem absorb_closed (hq : IsQuote q) {c : Char} (hc : isDelimiter c) :
    (Mode.closed cs).absorb q c = none := by
  simp only [isDelimiter, Bool.or_eq_true, beq_iff_eq] at hc
  rcases hq with rfl | rfl <;> rcases hc with (rfl | rfl) | rfl <;> rfl

/-- A name between quotes is read back, with the points in it. -/
theorem lexes_name {s : Spelling} (hs : IsQuote s.quote) {n : String} (hn : s.quote ∉ n.toList) :
    Lexes s.quote (s.name n).toList [.name n] := by
  intro rest hrest
  obtain ⟨part, parts, hsplit⟩ := List.exists_cons_of_ne_nil (Text.split_ne_nil '.' n.toList)
  have hjoin : Text.join ['.'] (part :: parts) = n.toList := by rw [← hsplit, Text.join_split]
  have hfree : ∀ p ∈ part :: parts, s.quote ∉ p := by
    intro p hp hmem
    rw [← hjoin] at hn
    exact hn (Text.mem_join_of_mem hmem hp)
  have hpoint : s.quote ≠ '.' := by rcases hs with h | h <;> rw [h] <;> decide
  have hscan := scan_quotedRest hpoint rest parts part [] (hfree part (by simp))
    fun p hp => hfree p (by simp [hp])
  have hfinish : (Mode.closed n.toList).finish = some [.name n] := by simp [Mode.finish]
  rw [List.nil_append, hjoin] at hscan
  rw [Spelling.name, String.toList_ofList, hsplit, join_segments, List.cons_append, scan]
  simp only [Mode.absorb, Mode.finish, start_quote hs, hscan]
  rw [scan_finish hfinish fun c hc => absorb_closed hs (hrest c hc), Option.map_map]
  simp [Function.comp_def]

private theorem scan_number {digits : List Char} (hd : ∀ d ∈ digits, d.isDigit = true) (rest : List Char) :
    scan q .number (digits ++ rest) = scan q .number rest := by
  induction digits with
  | nil => rfl
  | cons d digits ih =>
    have hdigit : d.isDigit = true := hd d (by simp)
    rw [List.cons_append, scan]
    simp only [Mode.absorb, hdigit, if_true]
    exact ih fun e he => hd e (by simp [he])

private theorem lexes_dollar (n : Nat) : Lexes q (Dialect.dollar n).toList [.placeholder] := by
  intro rest hrest
  rw [Spelling.toList_dollar]
  have hdigits : ∀ d ∈ Nat.toDigits 10 n, d.isDigit = true :=
    fun d hd => Spelling.isDigit_of_mem_dollar hd
  have hend : ∀ c ∈ rest.head?, Mode.number.absorb q c = none := by
    intro c hc
    have hdelimiter := hrest c hc
    simp only [isDelimiter, Bool.or_eq_true, beq_iff_eq] at hdelimiter
    rcases hdelimiter with (rfl | rfl) | rfl <;> rfl
  cases hn : Nat.toDigits 10 n with
  | nil => exact absurd hn Nat.toDigits_ne_nil
  | cons d digits =>
    rw [hn] at hdigits
    have hfirst : d.isDigit = true := hdigits d (by simp)
    have hothers : ∀ e ∈ digits, e.isDigit = true := fun e he => hdigits e (by simp [he])
    have hscan := scan_number (q := q) hothers rest
    have hfinish : Mode.number.finish = some [.placeholder] := rfl
    rw [scan_finish hfinish hend] at hscan
    simp only [List.cons_append, scan, Mode.absorb, Mode.finish, start]
    simp [hfirst, hscan, Function.comp_def]

theorem lexes_placeholder {d : Dialect} (hd : d ∈ Dialect.given) (n : Nat) :
    Lexes q (d.spelling.placeholder n).toList [.placeholder] := by
  have hquestion : Lexes q (Dialect.questionMark n).toList [.placeholder] := by
    rw [Spelling.toList_questionMark]
    exact opens_question.lexes
  rcases Dialect.eq_of_given hd with rfl | rfl | rfl
  · exact hquestion
  · exact hquestion
  · exact lexes_dollar n

end EntitySql.Reader
