import EntitySql.Proofs.Postgres.Sharing

namespace EntitySql.Postgres

variable {σ π β γ : Type}

def Request.OfStatement (r : Request π) : Prop := ∀ command, r ≠ .control command

theorem Request.OfStatement.cases {r : Request π} (hr : r.OfStatement) :
    (∃ sql, r = .prepare sql) ∨ ∃ prepared cells, r = .run prepared cells := by
  cases r with
  | prepare sql => exact .inl ⟨sql, rfl⟩
  | run prepared cells => exact .inr ⟨prepared, cells, rfl⟩
  | control command => exact absurd rfl (hr command)

/-- Where a holder stands with the server. -/
inductive Standing where
  | apart
  /-- In the name of a transaction, whose lease somebody else keeps. -/
  | borrowed
  | clear
  /-- With the connection, before the rollback of what the last holder left. -/
  | due
  | within
  deriving DecidableEq

namespace Standing

def Holding (st : Standing) : Prop := st = clear ∨ st = due ∨ st = within

/-- What may be asked, by a transaction or through the driver, under a mark. -/
def May (tx marked : Bool) : Standing → Request π → Prop
  | borrowed, .prepare _ | borrowed, .run _ _ => tx = true
  | clear, .prepare _ | clear, .run _ _ | clear, .control .begin => tx = false
  | due, .control .rollback => tx = false ∧ marked = true
  | within, .control .commit | within, .control .rollback => tx = true ∧ marked = true
  | _, _ => False

def next (st : Standing) : Request π → Bool → Standing
  | .control .begin, true => within
  | .control .begin, false => st
  | .control _, true => clear
  | .control _, false => due
  | _, _ => st

theorem next_of_statement {r : Request π} (hr : r.OfStatement) (st : Standing) (accepted : Bool) :
    st.next r accepted = st := by
  rcases hr.cases with ⟨sql, rfl⟩ | ⟨prepared, cells, rfl⟩ <;> rfl

theorem ofStatement_of_borrowed {tx marked : Bool} {r : Request π} (h : borrowed.May tx marked r) :
    r.OfStatement := by
  intro command hr
  subst hr
  exact h

end Standing

namespace Task

/-- The task asks only what fits its standing, whatever the answers, and ends as it should. -/
def Keeps (tx : Bool) (post : Standing → Bool → Except Error β → Prop) :
    Standing → Bool → Task π β → Prop
  | st, marked, done x => post st marked x
  | st, _, acquire next =>
    (st = .apart ∧ tx = false) ∧ Keeps tx post .clear false (next false) ∧ Keeps tx post .due false (next true)
  | st, _, mark inTransaction next => st.Holding ∧ Keeps tx post st inTransaction next
  | st, marked, warn next => Keeps tx post st marked next
  | st, marked, ask r next =>
    st.May tx marked r ∧ ∀ answer : Option r.Result, Keeps tx post (st.next r answer.isSome) marked (next answer)
  | st, marked, release next =>
    st.Holding ∧ (st = .clear ∨ marked = true) ∧ Keeps tx post .apart false next

variable {tx marked : Bool} {st : Standing}

private theorem keeps_after {t : Task π β} {k : Except Error β → Task π γ}
    {post : Standing → Bool → Except Error γ → Prop} :
    (t.after k).Keeps tx post st marked ↔
      t.Keeps tx (fun st marked x => (k x).Keeps tx post st marked) st marked := by
  induction t generalizing st marked with
  | done x => rfl
  | acquire next ih => simp only [after, Keeps, ih]
  | mark inTransaction next ih => simp only [after, Keeps, ih]
  | warn next ih => simp only [after, Keeps, ih]
  | ask r next ih => simp only [after, Keeps, ih]
  | release next ih => simp only [after, Keeps, ih]

private theorem Keeps.mono {t : Task π β} {post post' : Standing → Bool → Except Error β → Prop}
    (hpost : ∀ st marked x, post st marked x → post' st marked x) (h : t.Keeps tx post st marked) :
    t.Keeps tx post' st marked := by
  induction t generalizing st marked with
  | done x => exact hpost st marked x h
  | acquire next ih => exact ⟨h.1, ih false h.2.1, ih true h.2.2⟩
  | mark inTransaction next ih => exact ⟨h.1, ih h.2⟩
  | warn next ih => exact ih h
  | ask r next ih => exact ⟨h.1, fun answer => ih answer (h.2 answer)⟩
  | release next ih => exact ⟨h.1, h.2.1, ih h.2.2⟩

private theorem Keeps.bind {t : Task π β} {f : β → Task π γ} {post : Standing → Bool → Except Error γ → Prop}
    (h : t.Keeps tx (fun st marked x =>
      match x with
      | .ok b => (f b).Keeps tx post st marked
      | .error e => post st marked (.error e)) st marked) : (t >>= f).Keeps tx post st marked := by
  refine keeps_after.mpr (h.mono fun st marked x hx => ?_)
  cases x with
  | ok b => exact hx
  | error e => exact hx

/-- A call ends without a lease, or with that of a transaction that it has begun. -/
def Final (st : Standing) (marked : Bool) (_ : Except Error β) : Prop :=
  st = .apart ∨ st = .borrowed ∨ st = .within ∧ marked = true

private theorem keeps_quiet {t : Task π β} (h : t.Keeps tx Final st marked) : t.quiet.Keeps tx Final st marked := by
  refine keeps_after.mpr (h.mono fun st marked x hx => ?_)
  exact hx

private theorem keeps_closing {t : Task π β}
    (h : t.Keeps tx (fun st marked _ => st.Holding ∧ (st = .clear ∨ marked = true)) st marked) :
    t.closing.Keeps tx Final st marked := by
  refine keeps_after.mpr (h.mono fun st marked x hx => ?_)
  exact ⟨hx.1, hx.2, .inl rfl⟩

private theorem keeps_request {r : Request π} {post : Standing → Bool → Except Error r.Result → Prop}
    (hmay : st.May tx marked r) (hok : ∀ x, post (st.next r true) marked (.ok x))
    (herror : ∀ e, post (st.next r false) marked (.error e)) : (request r).Keeps tx post st marked := by
  refine ⟨hmay, fun answer => ?_⟩
  cases answer with
  | none => exact herror refused
  | some x => exact hok x

section

variable (s : Server σ π) (statement : Statement)

/-- A statement leaves the standing of its holder. -/
theorem keeps_run (hmay : ∀ r : Request π, r.OfStatement → st.May tx marked r) :
    (run s statement).Keeps tx (fun st' marked' _ => st' = st ∧ marked' = marked) st marked := by
  have hask (r : Request π) (hr : r.OfStatement) :
      (request r).Keeps tx (fun st' marked' _ => st' = st ∧ marked' = marked) st marked := by
    refine keeps_request (hmay r hr) (fun _ => ?_) fun _ => ?_
    · exact ⟨Standing.next_of_statement hr st true, rfl⟩
    · exact ⟨Standing.next_of_statement hr st false, rfl⟩
  unfold run
  refine Keeps.bind ((hask (.prepare statement.sql) nofun).mono fun st' marked' x hx => ?_)
  obtain ⟨rfl, rfl⟩ := hx
  cases x with
  | error e => exact ⟨rfl, rfl⟩
  | ok prepared =>
    refine Keeps.bind ?_
    cases encodeArgs (s.params prepared) statement.args with
    | error e => exact ⟨rfl, rfl⟩
    | ok cells =>
      refine Keeps.bind ((hask (.run prepared cells) nofun).mono fun st' marked' x hx => ?_)
      obtain ⟨rfl, rfl⟩ := hx
      cases x <;> exact ⟨rfl, rfl⟩

theorem keeps_query (hmay : ∀ r : Request π, r.OfStatement → st.May tx marked r) :
    (query s statement).Keeps tx (fun st' marked' _ => st' = st ∧ marked' = marked) st marked := by
  unfold query
  refine Keeps.bind ((keeps_run s statement hmay).mono fun st' marked' x hx => ?_)
  cases x <;> exact hx

theorem keeps_execute (hmay : ∀ r : Request π, r.OfStatement → st.May tx marked r) :
    (execute s statement).Keeps tx (fun st' marked' _ => st' = st ∧ marked' = marked) st marked := by
  unfold execute
  refine Keeps.bind ((keeps_run s statement hmay).mono fun st' marked' x hx => ?_)
  cases x <;> exact hx

end

/-- A caller that gets past the lease has rolled back what was left; one that fails bears the mark. -/
theorem keeps_lease {post : Standing → Bool → Except Error Unit → Prop}
    (hok : post .clear false (.ok ())) (herror : ∀ e, post .due true (.error e)) :
    (lease (π := π)).Keeps false post .apart marked := by
  refine ⟨⟨rfl, rfl⟩, ?_, ?_⟩
  · exact hok
  · have hrollback : (request (.control .rollback)).Keeps (π := π) false
        (fun st marked x => match x with
          | .ok _ => st = .clear
          | .error _ => st = .due ∧ marked = true) .due true :=
      keeps_request ⟨rfl, rfl⟩ (fun _ => rfl) fun _ => ⟨rfl, rfl⟩
    refine ⟨.inr (.inl rfl), Keeps.bind (hrollback.mono fun st marked x hx => ?_)⟩
    cases x with
    | ok _ =>
      subst hx
      exact ⟨.inl rfl, hok⟩
    | error e =>
      obtain ⟨rfl, rfl⟩ := hx
      exact herror e

private theorem keeps_leased {t : Task π β}
    (h : t.Keeps false (fun st marked _ => st = .clear ∧ marked = false) .clear false) :
    (leased t).Keeps false Final .apart marked := by
  refine keeps_closing (Keeps.bind (keeps_lease ?_ fun e => ?_))
  · exact h.mono fun st marked x hx => ⟨.inl hx.1, .inl hx.1⟩
  · exact ⟨.inr (.inl rfl), .inr rfl⟩

/-- A caller that begins a transaction has the connection in hand, with the mark; one that fails has nothing. -/
theorem keeps_begin : (begin (π := π)).Keeps false
    (fun st marked x => match x with
      | .ok _ => st = .within ∧ marked = true
      | .error _ => st = .apart) .apart marked := by
  unfold begin keeping
  refine keeps_after.mpr (Keeps.bind (keeps_lease ?_ fun e => ?_))
  · refine Keeps.bind (keeps_request rfl (fun _ => ?_) fun e => ?_)
    · exact ⟨.inr (.inr rfl), rfl, rfl⟩
    · exact ⟨.inl rfl, .inl rfl, rfl⟩
  · exact ⟨.inr (.inl rfl), .inr rfl, rfl⟩

theorem keeps_finish {command : Control} (hcommand : command = .commit ∨ command = .rollback) :
    (finish (π := π) command).Keeps true Final .within true := by
  have hmay : Standing.within.May (π := π) true true (.control command) := by
    rcases hcommand with rfl | rfl <;> exact ⟨rfl, rfl⟩
  have hok : Standing.within.next (π := π) (.control command) true = .clear := by
    rcases hcommand with rfl | rfl <;> rfl
  have herror : Standing.within.next (π := π) (.control command) false = .due := by
    rcases hcommand with rfl | rfl <;> rfl
  refine keeps_closing (Keeps.bind (keeps_request hmay (fun _ => ?_) fun e => ?_))
  · rw [hok]
    exact ⟨.inl rfl, .inl rfl, .inl rfl⟩
  · rw [herror]
    exact ⟨.inr (.inl rfl), .inr rfl⟩

theorem OfDriver.keeps {s : Server σ π} {t : Task π Unit} (ht : t.OfDriver s) :
    t.Keeps false Final .apart marked := by
  have hmay (r : Request π) (hr : r.OfStatement) : Standing.clear.May false false r := by
    rcases hr.cases with ⟨sql, rfl⟩ | ⟨prepared, cells, rfl⟩ <;> rfl
  cases ht with
  | query statement => exact keeps_quiet (keeps_leased (keeps_query s statement hmay))
  | execute statement => exact keeps_quiet (keeps_leased (keeps_execute s statement hmay))
  | begin =>
    refine keeps_begin.mono fun st marked x hx => ?_
    cases x with
    | ok _ => exact .inr (.inr hx)
    | error e => exact .inl hx

theorem OfTransaction.keeps {s : Server σ π} {t : Task π Unit} (ht : t.OfTransaction s) :
    t.Keeps true Final .borrowed marked := by
  have hmay (r : Request π) (hr : r.OfStatement) : Standing.borrowed.May true marked r := by
    rcases hr.cases with ⟨sql, rfl⟩ | ⟨prepared, cells, rfl⟩ <;> rfl
  cases ht with
  | query statement =>
    exact keeps_quiet ((keeps_query s statement hmay).mono fun _ _ _ hx => .inr (.inl hx.1))
  | execute statement =>
    exact keeps_quiet ((keeps_execute s statement hmay).mono fun _ _ _ hx => .inr (.inl hx.1))

end Task

end EntitySql.Postgres
