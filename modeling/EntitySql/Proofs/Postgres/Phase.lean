import EntitySql.Proofs.Postgres.Outlook

namespace EntitySql.Postgres

variable {σ π : Type}

/-- What is owed for a transaction that a holder left open. -/
inductive Debt where
  | settled
  | owed
  /-- A rollback was executed, but nobody has heard of it. -/
  | paid
  deriving DecidableEq

def Incident.turnDebt (d : Debt) : Incident π → Debt
  | released _ ⟨true⟩ => .owed
  | executed (.driver _) (.control .rollback) true _ => if d = .settled then .settled else .paid
  | heard (.driver _) (.control .rollback) true => if d = .paid then .settled else d
  | _ => d

def debt (log : List (Incident π)) : Debt := log.foldl Incident.turnDebt .settled

theorem debt_snoc (log : List (Incident π)) (i : Incident π) : debt (log ++ [i]) = i.turnDebt (debt log) := by
  simp [debt]

theorem turnDebt_executed (d : Debt) (o : Origin) (r : Request π) (accepted ended : Bool) :
    (Incident.executed o r accepted ended).turnDebt d ≠ .settled → d ≠ .settled := by
  intro h hd
  subst hd
  apply h
  unfold Incident.turnDebt
  split <;> simp_all

theorem turnDebt_heard (d : Debt) (o : Origin) (r : Request π) (accepted : Bool) :
    (Incident.heard o r accepted).turnDebt d ≠ .settled → d ≠ .settled := by
  intro h hd
  subst hd
  apply h
  unfold Incident.turnDebt
  split <;> simp_all

def Justified (before : List (Incident π)) : Incident π → Prop
  | .sent o r =>
    (debt before ≠ .settled → ∃ hold, o = .driver hold ∧ r = .control .rollback) ∧
      ∀ hold, o = .driver hold → r ≠ .control .rollback → Calm before (opened before)
  | .executed o r _ _ => Expected before (opened before) o r
  | .released _ l => l.inTransaction = true ∨ Calm before (opened before)
  | _ => True

def Sound (log : List (Incident π)) : Prop := ∀ before i rest, log = before ++ i :: rest → Justified before i

theorem Sound.snoc {log : List (Incident π)} {i : Incident π} (h : Sound log) (hi : Justified log i) :
    Sound (log ++ [i]) := by
  intro before j rest hlog
  rcases List.eq_nil_or_concat rest with rfl | ⟨rest, last, rfl⟩
  · obtain ⟨hbefore, hj⟩ := List.append_inj' hlog rfl
    cases hj
    exact hbefore ▸ hi
  · have hlog' : log ++ [i] = (before ++ j :: rest) ++ [last] := by simpa using hlog
    exact h before j rest (List.append_inj' hlog' rfl).1

namespace Sharing

def requests (P : List (Pending π)) : List (Origin × Request π) := P.map fun p => (p.origin, p.request)

def Orphaned (P : List (Pending π)) : Prop := ∀ p ∈ P, p.waiter = none

/-- A caller of a transaction, or one that was given up. -/
def OfHold (hold : Nat) (p : Pending π) : Prop :=
  p.waiter = none ∨ p.origin = .transaction hold ∧ ∃ next, p.waiter = some (none, next) ∧
    (Task.ask p.request next).Keeps true Task.Final .borrowed false

/-- What goes for every phase. -/
structure Steady (S : Sharing π) : Prop where
  sound : Sound S.log
  waiting : ∀ t ∈ S.waiting, t.Keeps false Task.Final .apart false

/-- A caller has the connection in hand. -/
structure Working (S : Sharing π) (o : Origin) (st : Standing) (P : List (Pending π)) : Prop
    extends Steady S where
  connection : S.connection = ⟨true, false⟩
  transactions : S.transactions = []
  holding : st.Holding
  orphaned : Orphaned P
  leads : Leads S.log (opened S.log) (requests P) (st.Fits S.log o.hold)

/-- Nobody has the connection. -/
structure Free (S : Sharing π) : Prop extends Steady S where
  held : S.connection.held = false
  transactions : S.transactions = []
  answered : S.answered = []
  orphaned : Orphaned S.pending
  leads : Leads S.log (opened S.log) (requests S.pending)
    fun inside => S.connection.abandoned = false → Calm S.log inside
  owed : debt S.log ≠ .settled → S.connection.abandoned = true

/-- A transaction keeps the connection. -/
structure Lent (S : Sharing π) (hold : Nat) : Prop extends Steady S where
  connection : S.connection = ⟨true, false⟩
  transactions : S.transactions = [(hold, ⟨true⟩)]
  pending : ∀ p ∈ S.pending, OfHold hold p
  answered : ∀ a ∈ S.answered, a.origin = .transaction hold ∧ a.lease = none ∧
    a.task.Keeps true Task.Final .borrowed false
  leads : Leads S.log (opened S.log) (requests S.pending) (Inside S.log hold)
  settled : debt S.log = .settled

inductive Phase (S : Sharing π) : Prop
  | free (h : S.Free)
  /-- The holder waits for the answer to the last request. -/
  | asking {o : Origin} {st : Standing} {P : List (Pending π)} {r : Request π} {marked : Bool}
    {next : Option r.Result → Task π Unit} (h : S.Working o st P) (hanswered : S.answered = [])
    (hpending : S.pending = P ++ [⟨o, r, some (some ⟨marked⟩, next)⟩])
    (hkeeps : (Task.ask r next).Keeps o.tx Task.Final st marked)
    (hdebt : debt S.log ≠ .settled → st = .due)
  | told {o : Origin} {st : Standing} {r : Request π} {accepted marked : Bool} {t : Task π Unit}
    (h : S.Working o st []) (hpending : S.pending = [])
    (hanswered : S.answered = [⟨o, r, accepted, some ⟨marked⟩, t⟩])
    (hkeeps : t.Keeps o.tx Task.Final st marked)
    (hmarked : marked = false → Calm (S.log ++ [.dropped o r]) (opened S.log))
    (hdebt : debt S.log ≠ .settled → marked = true ∧
      (st = .due ∨ debt S.log = .paid ∧ o.tx = false ∧ r = .control .rollback ∧ accepted = true))
  | lent {hold : Nat} (h : S.Lent hold)

variable {S : Sharing π}

theorem leads_requests_append {P : List (Pending π)} {p : Pending π} {log : List (Incident π)}
    {inside : Option Nat} {post post' : Option Nat → Prop} (h : Leads log inside (requests P) post)
    (hnext : ∀ inside, post inside → Expected log inside p.origin p.request ∧
      ∀ accepted ended, post' ((Incident.executed p.origin p.request accepted ended).turn inside)) :
    Leads log inside (requests (P ++ [p])) post' := by
  have happend : requests (P ++ [p]) = requests P ++ [(p.origin, p.request)] := by simp [requests]
  rw [happend]
  exact h.append hnext

/-- Whoever gives the connection up leaves it free. Without a mark nothing may be left open. -/
theorem free_giveUp {hold : Nat} {marked : Bool} (hs : S.Steady) (hconnection : S.connection = ⟨true, false⟩)
    (htransactions : S.transactions = []) (hanswered : S.answered = []) (horphaned : Orphaned S.pending)
    (hleads : Leads S.log (opened S.log) (requests S.pending) fun inside => marked = false → Calm S.log inside)
    (hdebt : debt S.log ≠ .settled → marked = true) : (S.giveUp hold (some ⟨marked⟩)).Free := by
  have hlog : S.log ⊆ S.log ++ [.released hold ⟨marked⟩] := List.subset_append_left _ _
  have habandoned : (S.connection.release ⟨marked⟩).abandoned = marked := by
    simp [Connection.release, hconnection]
  refine
    { sound := ?_, waiting := hs.waiting, held := rfl, transactions := htransactions, answered := hanswered
      orphaned := horphaned, leads := ?_, owed := ?_ }
  · refine hs.sound.snoc ?_
    cases marked with
    | true => exact .inl rfl
    | false => exact .inr (hleads.now rfl)
  · refine hleads.snoc rfl fun inside hcalm hfree => ?_
    exact (hcalm (habandoned.symm.trans hfree)).mono hlog
  · intro howed
    refine habandoned.trans ?_
    cases marked with
    | true => rfl
    | false =>
      refine hdebt fun hsettled => howed ?_
      exact (debt_snoc S.log _).trans hsettled

/-- A task without the connection can only wait for it or end. -/
theorem Free.proceed {o : Origin} {t : Task π Unit} {tx marked : Bool} (h : S.Free)
    (hkeeps : t.Keeps tx Task.Final .apart marked) : (S.proceed o t none).Phase := by
  induction t generalizing S marked with
  | done x => exact .free h
  | acquire next ih =>
    refine .free { h with waiting := fun t ht => ?_ }
    rcases List.mem_append.mp ht with ht | ht
    · exact h.waiting t ht
    · obtain ⟨⟨_, rfl⟩, hnext⟩ := hkeeps
      rw [List.mem_singleton.mp ht]
      exact ⟨⟨rfl, rfl⟩, hnext⟩
  | mark inTransaction next ih =>
    have hholding := hkeeps.1
    simp [Standing.Holding] at hholding
  | warn next ih => exact ih h hkeeps
  | ask r next ih => exact hkeeps.1.elim
  | release next ih =>
    have hholding := hkeeps.1
    simp [Standing.Holding] at hholding

end Sharing

end EntitySql.Postgres
