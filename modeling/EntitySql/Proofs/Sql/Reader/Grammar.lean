import EntitySql.Proofs.Sql.Reader.Token

namespace EntitySql.Reader

def strength : BinaryOp → Nat
  | .or => 1
  | .and => 2
  | .eq | .ne | .gt | .ge | .lt | .le | .like | .isIn => 4

def notStrength : Nat := 3

/-- What was begun and waits for its end. -/
inductive Frame where
  | negation
  | binary (left : Expr) (op : BinaryOp)
  | group
  | membership (left : Expr)
  | items (left : Expr) (done : List Expr)
  /-- The name of an aggregate function, until its argument opens. -/
  | call (f : AggregateFunction)
  | argument (f : AggregateFunction)

/-- What has been read: the frames, the latest first, the operand right before, and the arguments that no
placeholder has taken yet. -/
structure State where
  stack : List Frame
  current : Option Expr
  values : List Value

/-- An operand with the operators before it that bind at least as tightly as an operator after it. -/
def reduce (level : Nat) : Expr → List Frame → Expr × List Frame
  | e, .negation :: stack =>
    if level ≤ notStrength then reduce level (.predicate (.prefixed .not e)) stack
    else (e, .negation :: stack)
  | e, .binary left op :: stack =>
    if level ≤ strength op then reduce level (.predicate (.binary left op e)) stack
    else (e, .binary left op :: stack)
  | e, stack => (e, stack)

/-- Whether NOT may stand after the latest frame: not as the operand of what binds tighter. -/
def admitsNot : List Frame → Bool
  | .binary _ op :: _ => strength op ≤ notStrength
  | _ => true

def operand (m : Model) (stack : List Frame) (values : List Value) : Token → Option State
  | .name column => (m.column? column).map fun f => ⟨stack, some (.column (.named f.name)), values⟩
  | .placeholder =>
    match values with
    | [] => none
    | v :: values => some ⟨stack, some (.value v), values⟩
  | .aggregate f => some ⟨.call f :: stack, none, values⟩
  | .not => if admitsNot stack then some ⟨.negation :: stack, none, values⟩ else none
  | .opening =>
    match stack with
    | .call f :: stack => some ⟨.argument f :: stack, none, values⟩
    | .membership left :: stack => some ⟨.items left [] :: stack, none, values⟩
    | stack => some ⟨.group :: stack, none, values⟩
  | .binary _ | .closing | .comma => none

def operator (stack : List Frame) (e : Expr) (values : List Value) : Token → Option State
  | .binary op =>
    let (e, stack) := reduce (strength op) e stack
    some ⟨(if op = .isIn then .membership e else .binary e op) :: stack, none, values⟩
  | .comma =>
    match reduce 0 e stack with
    | (e, .items left done :: stack) => some ⟨.items left (done ++ [e]) :: stack, none, values⟩
    | _ => none
  | .closing =>
    match reduce 0 e stack with
    | (e, .group :: stack) => some ⟨stack, some e, values⟩
    | (e, .items left done :: stack) =>
      some ⟨stack, some (.predicate (.binary left .isIn (.list (done ++ [e])))), values⟩
    | (.column c, .argument f :: stack) => some ⟨stack, some (.aggregate ⟨f, c, none⟩), values⟩
    | _ => none
  | .name _ | .placeholder | .not | .aggregate _ | .opening => none

def step (m : Model) (s : State) (t : Token) : Option State :=
  match s.current with
  | none => operand m s.stack s.values t
  | some e => operator s.stack e s.values t

def run (m : Model) (s : State) (ts : List Token) : Option State := ts.foldlM (step m) s

/-- The condition that has been read, if nothing is left to end or to take. -/
def State.condition? (s : State) : Option Predicate :=
  match s with
  | ⟨stack, some e, []⟩ =>
    match reduce 0 e stack with
    | (.predicate p, []) => some p
    | _ => none
  | _ => none

/-- The condition that a text and its arguments say of the rows of a model. -/
def condition? (q : Char) (m : Model) (text : String) (args : List Value) : Option Predicate := do
  let ts ← scan q .gap text.toList
  let s ← run m ⟨[], none, args⟩ ts
  s.condition?

variable {m : Model}

private theorem run_append (s : State) (ts us : List Token) :
    run m s (ts ++ us) = (run m s ts).bind fun s => run m s us := by
  rw [run, List.foldlM_append]
  rfl

/-- Frames among which a whole condition is read. -/
def Closed (stack : List Frame) : Prop := stack = [] ∨ ∃ rest, stack = .group :: rest

/-- Frames after which an opening parenthesis starts a group. -/
def Due (stack : List Frame) : Prop :=
  (∀ f rest, stack ≠ .call f :: rest) ∧ ∀ left rest, stack ≠ .membership left :: rest

private theorem Closed.due {stack : List Frame} (h : Closed stack) : Due stack := by
  rcases h with rfl | ⟨rest, rfl⟩
  · exact ⟨nofun, nofun⟩
  · exact ⟨nofun, nofun⟩

private theorem reduce_closed {stack : List Frame} (h : Closed stack) (level : Nat) (e : Expr) :
    reduce level e stack = (e, stack) := by
  rcases h with rfl | ⟨rest, rfl⟩ <;> rfl

private theorem admitsNot_closed {stack : List Frame} (h : Closed stack) : admitsNot stack = true := by
  rcases h with rfl | ⟨rest, rfl⟩ <;> rfl

private theorem operand_opening {stack : List Frame} (h : Due stack) (values : List Value) :
    operand m stack values .opening = some ⟨.group :: stack, none, values⟩ := by
  cases stack with
  | nil => rfl
  | cons frame rest =>
    cases frame with
    | call f => exact absurd rfl (h.1 f rest)
    | membership left => exact absurd rfl (h.2 left rest)
    | _ => rfl

/-- Tokens that are read as an operand and take arguments. -/
def Reads (m : Model) (ts : List Token) (vs : List Value) (e : Expr) : Prop :=
  ∀ stack values, Due stack →
    run m ⟨stack, none, vs ++ values⟩ ts = some ⟨stack, some e, values⟩

/-- Tokens that are read as a condition and take arguments, up to operators that wait for what comes
next. -/
def Stands (m : Model) (ts : List Token) (vs : List Value) (p : Predicate) : Prop :=
  ∀ stack values, Closed stack → ∃ pending e,
    run m ⟨stack, none, vs ++ values⟩ ts = some ⟨pending ++ stack, some e, values⟩ ∧
      reduce 0 e (pending ++ stack) = (.predicate p, stack)

/-- Tokens that are read as the items of a list and take arguments. -/
def ReadsItems (m : Model) (ts : List Token) (vs : List Value) (items : List Expr) : Prop :=
  ∀ left done stack values,
    run m ⟨.items left done :: stack, none, vs ++ values⟩ (ts ++ [.closing]) =
      some ⟨stack, some (.predicate (.binary left .isIn (.list (done ++ items)))), values⟩

variable {ts us : List Token} {vs ws : List Value}

theorem reads_column {f : Field} {column : String} (hf : m.column? column = some f) :
    Reads m [.name column] [] (.column (.named f.name)) := by
  intro stack values _
  simp [run, step, operand, hf]

theorem reads_value (v : Value) : Reads m [.placeholder] [v] (.value v) := by
  intro stack values _
  rfl

theorem reads_aggregate (func : AggregateFunction) {f : Field} {column : String}
    (hf : m.column? column = some f) :
    Reads m [.aggregate func, .opening, .name column, .closing] []
      (.aggregate ⟨func, .named f.name, none⟩) := by
  intro stack values _
  simp [run, step, operand, operator, reduce, hf]

theorem reads_group {p : Predicate} (hp : Stands m ts vs p) :
    Reads m (.opening :: (ts ++ [.closing])) vs (.predicate p) := by
  intro stack values hdue
  obtain ⟨pending, e, hrun, hreduce⟩ := hp (.group :: stack) values (.inr ⟨stack, rfl⟩)
  have hopen : run m ⟨stack, none, vs ++ values⟩ (.opening :: (ts ++ [.closing])) =
      run m ⟨.group :: stack, none, vs ++ values⟩ (ts ++ [.closing]) := by
    rw [run, List.foldlM_cons, step]
    simp only [operand_opening hdue]
    rfl
  rw [hopen, run_append, hrun]
  simp [run, step, operator, hreduce]

theorem stands_binary {left right : Expr} {op : BinaryOp} (hop : op ≠ .isIn)
    (hl : Reads m ts vs left) (hr : Reads m us ws right) :
    Stands m (ts ++ .binary op :: us) (vs ++ ws) (.binary left op right) := by
  intro stack values hclosed
  refine ⟨[.binary left op], right, ?_, ?_⟩
  · have hnext : Due (.binary left op :: stack) := ⟨nofun, nofun⟩
    have hoperator : step m ⟨stack, some left, ws ++ values⟩ (.binary op) =
        some ⟨.binary left op :: stack, none, ws ++ values⟩ := by
      simp [step, operator, reduce_closed hclosed, hop]
    rw [List.append_assoc, run_append, hl stack (ws ++ values) hclosed.due, Option.bind_some, run,
      List.foldlM_cons, hoperator]
    exact hr _ _ hnext
  · rw [List.cons_append, reduce, List.nil_append, if_pos (Nat.zero_le _), reduce_closed hclosed]

theorem stands_not {e : Expr} (he : Reads m ts vs e) :
    Stands m (.not :: ts) vs (.prefixed .not e) := by
  intro stack values hclosed
  refine ⟨[.negation], e, ?_, ?_⟩
  · have hnext : Due (.negation :: stack) := ⟨nofun, nofun⟩
    have hnot : step m ⟨stack, none, vs ++ values⟩ .not =
        some ⟨.negation :: stack, none, vs ++ values⟩ := by
      simp [step, operand, admitsNot_closed hclosed]
    rw [run, List.foldlM_cons, hnot]
    exact he _ _ hnext
  · rw [List.cons_append, reduce, List.nil_append, if_pos (Nat.zero_le _), reduce_closed hclosed]

theorem stands_isIn {left : Expr} {items : List Expr} (hl : Reads m ts vs left)
    (hi : ReadsItems m us ws items) :
    Stands m (ts ++ .binary .isIn :: .opening :: (us ++ [.closing])) (vs ++ ws)
      (.binary left .isIn (.list items)) := by
  intro stack values hclosed
  refine ⟨[], .predicate (.binary left .isIn (.list items)), ?_, reduce_closed hclosed 0 _⟩
  have hoperator : step m ⟨stack, some left, ws ++ values⟩ (.binary .isIn) =
      some ⟨.membership left :: stack, none, ws ++ values⟩ := by
    simp [step, operator, reduce_closed hclosed]
  have hopening : step m ⟨.membership left :: stack, none, ws ++ values⟩ .opening =
      some ⟨.items left [] :: stack, none, ws ++ values⟩ := rfl
  rw [List.append_assoc, run_append, hl stack (ws ++ values) hclosed.due, Option.bind_some, run,
    List.foldlM_cons, hoperator, Option.bind_eq_bind, Option.bind_some, List.foldlM_cons, hopening]
  exact hi left [] stack values

theorem readsItems_one {e : Expr} (he : Reads m ts vs e) : ReadsItems m ts vs [e] := by
  intro left done stack values
  have hdue : Due (.items left done :: stack) := ⟨nofun, nofun⟩
  rw [run_append, he _ values hdue]
  rfl

theorem readsItems_cons {e : Expr} {items : List Expr} (he : Reads m ts vs e)
    (hi : ReadsItems m us ws items) : ReadsItems m (ts ++ .comma :: us) (vs ++ ws) (e :: items) := by
  intro left done stack values
  have hdue : Due (.items left done :: stack) := ⟨nofun, nofun⟩
  have hcomma : step m ⟨.items left done :: stack, some e, ws ++ values⟩ .comma =
      some ⟨.items left (done ++ [e]) :: stack, none, ws ++ values⟩ := rfl
  have hrest := hi left (done ++ [e]) stack values
  rw [List.append_assoc] at hrest
  rw [List.append_assoc, List.append_assoc, run_append, he _ (ws ++ values) hdue, Option.bind_some,
    List.cons_append, run, List.foldlM_cons, hcomma]
  exact hrest

/-- A condition that stands alone is what has been read. -/
theorem condition?_of_stands {p : Predicate} (hp : Stands m ts vs p) :
    ((run m ⟨[], none, vs⟩ ts).bind State.condition?) = some p := by
  obtain ⟨pending, e, hrun, hreduce⟩ := hp [] [] (.inl rfl)
  rw [List.append_nil] at hrun hreduce
  rw [List.append_nil] at hrun
  rw [hrun, Option.bind_some, State.condition?, hreduce]

/-- Without parentheses, what binds tighter is read first. -/
example : (run ⟨"notes", .named "Note", [⟨"a", "a", 0, 8, ⟨.integer .i64⟩, 0⟩]⟩ ⟨[], none, [.null]⟩
    [.not, .name "a", .binary .eq, .placeholder, .binary .or, .name "a", .binary .and, .name "a"]).bind
      State.condition? = some (.binary
        (.predicate (.prefixed .not (.predicate ((Column.named "a").compare .eq (.value .null))))) .or
        (.predicate (.binary (.column (.named "a")) .and (.column (.named "a"))))) := by
  rfl

end EntitySql.Reader
