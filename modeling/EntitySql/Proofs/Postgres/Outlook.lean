import EntitySql.Proofs.Postgres.Discipline

namespace EntitySql.Postgres

variable {π : Type}

theorem opened_snoc (log : List (Incident π)) (i : Incident π) :
    opened (log ++ [i]) = i.turn (opened log) := by
  simp [opened]

/-- The caller of a hold was given up while it waited for the answer to its `BEGIN`. -/
def Lost (log : List (Incident π)) (hold : Nat) : Prop :=
  .dropped (.driver hold) (.control .begin) ∈ log

/-- Outside every transaction, or inside a lost one. -/
def Calm (log : List (Incident π)) (inside : Option Nat) : Prop := ∀ hold, inside = some hold → Lost log hold

def Inside (log : List (Incident π)) (hold : Nat) (inside : Option Nat) : Prop :=
  ∃ opener, inside = some opener ∧ (opener = hold ∨ Lost log opener)

def Standing.Fits (log : List (Incident π)) (hold : Nat) : Standing → Option Nat → Prop
  | clear => Calm log
  | within => Inside log hold
  | _ => fun _ => True

/-- What the server has to be inside when it executes a request. -/
def Expected (log : List (Incident π)) (inside : Option Nat) : Origin → Request π → Prop
  | .driver _, r => r = .control .rollback ∨ Calm log inside
  | .transaction hold, r => r ≠ .control .begin ∧ (r.OfStatement → Inside log hold inside)

section

variable {log log' : List (Incident π)} {inside : Option Nat} {hold : Nat}

theorem Calm.mono (hlog : log ⊆ log') (h : Calm log inside) : Calm log' inside :=
  fun hold hinside => hlog (h hold hinside)

theorem Inside.mono (hlog : log ⊆ log') (h : Inside log hold inside) : Inside log' hold inside := by
  obtain ⟨opener, hinside, hopener⟩ := h
  exact ⟨opener, hinside, hopener.imp_right fun hlost => hlog hlost⟩

theorem Standing.Fits.mono (hlog : log ⊆ log') {st : Standing} (h : st.Fits log hold inside) :
    st.Fits log' hold inside := by
  cases st with
  | clear => exact Calm.mono hlog h
  | within => exact Inside.mono hlog h
  | apart => trivial
  | borrowed => trivial
  | due => trivial

private theorem Expected.mono (hlog : log ⊆ log') {o : Origin} {r : Request π} (h : Expected log inside o r) :
    Expected log' inside o r := by
  cases o with
  | driver hold => exact Or.imp_right (Calm.mono hlog) h
  | transaction hold => exact ⟨h.1, fun hr => (h.2 hr).mono hlog⟩

end

theorem turn_of_statement {r : Request π} (hr : r.OfStatement) (o : Origin) (accepted ended : Bool)
    (inside : Option Nat) : (Incident.executed o r accepted ended).turn inside = inside := by
  rcases hr.cases with ⟨sql, rfl⟩ | ⟨prepared, cells, rfl⟩ <;> rfl

private theorem turn_refused (o : Origin) (r : Request π) (inside : Option Nat) :
    (Incident.executed o r false false).turn inside = inside := by
  cases r with
  | prepare sql => rfl
  | run prepared cells => rfl
  | control command => cases command <;> rfl

def Origin.tx : Origin → Bool
  | driver _ => false
  | transaction _ => true

/-- What is asked with a lease in hand, and under which mark. -/
inductive Standing.Asks : Origin → Standing → Bool → Request π → Prop
  | statement {hold : Nat} {marked : Bool} {r : Request π} (hr : r.OfStatement) :
    Asks (.driver hold) .clear marked r
  | begin {hold : Nat} {marked : Bool} : Asks (.driver hold) .clear marked (.control .begin)
  | recover {hold : Nat} : Asks (.driver hold) .due true (.control .rollback)
  | commit {hold : Nat} : Asks (.transaction hold) .within true (.control .commit)
  | rollback {hold : Nat} : Asks (.transaction hold) .within true (.control .rollback)

theorem Standing.asks_of_may {o : Origin} {st : Standing} {marked : Bool} {r : Request π}
    (hheld : st.Holding) (hmay : st.May o.tx marked r) : st.Asks o marked r := by
  rcases hheld with rfl | rfl | rfl
  · cases o with
    | transaction hold =>
      cases r with
      | prepare sql => cases hmay
      | run prepared cells => cases hmay
      | control command => cases command <;> cases hmay
    | driver hold =>
      cases r with
      | prepare sql => exact .statement nofun
      | run prepared cells => exact .statement nofun
      | control command =>
        cases command with
        | begin => exact .begin
        | commit => exact hmay.elim
        | rollback => exact hmay.elim
  · cases r with
    | prepare sql => exact hmay.elim
    | run prepared cells => exact hmay.elim
    | control command =>
      cases command with
      | begin => exact hmay.elim
      | commit => exact hmay.elim
      | rollback =>
        obtain ⟨htx, rfl⟩ := hmay
        cases o with
        | driver hold => exact .recover
        | transaction hold => cases htx
  · cases r with
    | prepare sql => exact hmay.elim
    | run prepared cells => exact hmay.elim
    | control command =>
      cases o with
      | driver hold => cases command <;> exact absurd hmay (by simp [Standing.May, Origin.tx])
      | transaction hold =>
        cases command with
        | begin => exact hmay.elim
        | commit =>
          obtain ⟨-, rfl⟩ := hmay
          exact .commit
        | rollback =>
          obtain ⟨-, rfl⟩ := hmay
          exact .rollback

theorem Standing.Asks.holding_next {o : Origin} {st : Standing} {marked : Bool} {r : Request π}
    (hasks : st.Asks o marked r) (accepted : Bool) : (st.next r accepted).Holding := by
  cases hasks with
  | statement hr => exact .inl (next_of_statement hr clear accepted)
  | begin =>
    cases accepted with
    | false => exact .inl rfl
    | true => exact .inr (.inr rfl)
  | recover =>
    cases accepted with
    | false => exact .inr (.inl rfl)
    | true => exact .inl rfl
  | commit =>
    cases accepted with
    | false => exact .inr (.inl rfl)
    | true => exact .inl rfl
  | rollback =>
    cases accepted with
    | false => exact .inr (.inl rfl)
    | true => exact .inl rfl

/-- A request that fits the standing of its sender is expected, and its answer tells the new standing. -/
theorem fits_next {log : List (Incident π)} {inside : Option Nat} {o : Origin} {r : Request π} {st : Standing}
    {marked : Bool} (hasks : st.Asks o marked r) (hfits : st.Fits log o.hold inside) :
    Expected log inside o r ∧ ∀ accepted ended,
      (st.next r accepted).Fits log o.hold ((Incident.executed o r accepted ended).turn inside) := by
  cases hasks with
  | statement hr =>
    refine ⟨.inr hfits, fun accepted ended => ?_⟩
    rw [Standing.next_of_statement hr, turn_of_statement hr]
    exact hfits
  | @begin hold =>
    refine ⟨.inr hfits, fun accepted ended => ?_⟩
    cases accepted with
    | false => exact hfits
    | true =>
      cases inside with
      | none => exact ⟨hold, rfl, .inl rfl⟩
      | some opener => exact ⟨opener, rfl, .inr (hfits opener rfl)⟩
  | recover =>
    refine ⟨.inl rfl, fun accepted ended => ?_⟩
    cases accepted with
    | false => trivial
    | true => exact nofun
  | commit =>
    refine ⟨⟨nofun, fun hr => absurd rfl (hr .commit)⟩, fun accepted ended => ?_⟩
    cases accepted with
    | false => trivial
    | true => exact nofun
  | rollback =>
    refine ⟨⟨nofun, fun hr => absurd rfl (hr .rollback)⟩, fun accepted ended => ?_⟩
    cases accepted with
    | false => trivial
    | true => exact nofun

/-- A caller that is given up without a mark leaves no transaction open but a lost one. -/
theorem calm_of_dropped {log : List (Incident π)} {inside : Option Nat} {o : Origin} {r : Request π}
    {st : Standing} {marked accepted : Bool} (hasks : st.Asks o marked r)
    (hfits : (st.next r accepted).Fits log o.hold inside) (hmarked : marked = false) :
    Calm (log ++ [.dropped o r]) inside := by
  have hlog : log ⊆ log ++ [.dropped o r] := List.subset_append_left _ _
  cases hasks with
  | statement hr =>
    rw [Standing.next_of_statement hr] at hfits
    exact Calm.mono hlog hfits
  | @begin hold =>
    cases accepted with
    | false => exact Calm.mono hlog hfits
    | true =>
      obtain ⟨opener, rfl, hopener⟩ := hfits
      intro hold' hinside
      cases hinside
      rcases hopener with rfl | hlost
      · exact List.mem_append_right _ (List.mem_singleton.mpr rfl)
      · exact hlog hlost
  | recover => cases hmarked
  | commit => cases hmarked
  | rollback => cases hmarked

/-- Every request is expected when its turn comes, and what the server is inside in the end is as it should
be, whatever it accepts. -/
def Leads (log : List (Incident π)) : Option Nat → List (Origin × Request π) → (Option Nat → Prop) → Prop
  | inside, [], post => post inside
  | inside, (o, r) :: rest, post =>
    Expected log inside o r ∧
      ∀ accepted ended, Leads log ((Incident.executed o r accepted ended).turn inside) rest post

namespace Leads

variable {log log' : List (Incident π)} {requests : List (Origin × Request π)} {post post' : Option Nat → Prop}
  {inside : Option Nat}

theorem mono (hlog : log ⊆ log') (hpost : ∀ inside, post inside → post' inside)
    (h : Leads log inside requests post) : Leads log' inside requests post' := by
  induction requests generalizing inside with
  | nil => exact hpost inside h
  | cons request rest ih => exact ⟨h.1.mono hlog, fun accepted ended => ih (h.2 accepted ended)⟩

/-- Were all requests refused, the server would stay where it is. -/
theorem now (h : Leads log inside requests post) : post inside := by
  induction requests generalizing inside with
  | nil => exact h
  | cons request rest ih =>
    have hrest := h.2 false false
    rw [turn_refused] at hrest
    exact ih hrest

theorem append {o : Origin} {r : Request π} (h : Leads log inside requests post)
    (hnext : ∀ inside, post inside → Expected log inside o r ∧
      ∀ accepted ended, post' ((Incident.executed o r accepted ended).turn inside)) :
    Leads log inside (requests ++ [(o, r)]) post' := by
  induction requests generalizing inside with
  | nil => exact hnext inside h
  | cons request rest ih => exact ⟨h.1, fun accepted ended => ih (h.2 accepted ended)⟩

/-- An incident that does not concern the server leaves its outlook. -/
theorem snoc {i : Incident π} (h : Leads log (opened log) requests post)
    (hturn : i.turn (opened log) = opened log) (hpost : ∀ inside, post inside → post' inside) :
    Leads (log ++ [i]) (opened (log ++ [i])) requests post' := by
  rw [opened_snoc, hturn]
  exact h.mono (List.subset_append_left _ _) hpost

theorem executed {o : Origin} {r : Request π} (h : Leads log (opened log) ((o, r) :: requests) post)
    (accepted ended : Bool) (hpost : ∀ inside, post inside → post' inside) :
    Leads (log ++ [.executed o r accepted ended]) (opened (log ++ [.executed o r accepted ended])) requests
      post' := by
  rw [opened_snoc]
  exact (h.2 accepted ended).mono (List.subset_append_left _ _) hpost

end Leads

end EntitySql.Postgres
