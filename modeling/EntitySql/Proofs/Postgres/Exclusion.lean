import EntitySql.Proofs.Postgres.Progress

namespace EntitySql.Postgres

variable {σ π : Type}

def Incident.Ends : Incident π → Prop
  | executed _ (.control .commit) accepted ended | executed _ (.control .rollback) accepted ended =>
    (accepted || ended) = true
  | _ => False

/-- The transaction of a hold has begun and not ended. -/
def Open (log : List (Incident π)) (hold : Nat) : Prop :=
  ∃ before ended since, log = before ++ .executed (.driver hold) (.control .begin) true ended :: since ∧
    ∀ i ∈ since, ¬ i.Ends

private theorem turn_of_not_ends {hold : Nat} {i : Incident π} (h : ¬ i.Ends) : i.turn (some hold) = some hold := by
  cases i with
  | executed o r accepted ended =>
    cases r with
    | prepare sql => rfl
    | run prepared cells => rfl
    | control command =>
      cases command with
      | begin => cases accepted <;> rfl
      | commit => exact if_neg h
      | rollback => exact if_neg h
  | sent o r => rfl
  | heard o r accepted => rfl
  | dropped o r => rfl
  | released hold l => rfl

private theorem turn_eq_some {inside : Option Nat} {hold : Nat} {i : Incident π} (h : i.turn inside = some hold) :
    inside = some hold ∧ ¬ i.Ends ∨ ∃ o ended, i = .executed o (.control .begin) true ended ∧ o.hold = hold := by
  cases i with
  | executed o r accepted ended =>
    cases r with
    | prepare sql => exact .inl ⟨h, nofun⟩
    | run prepared cells => exact .inl ⟨h, nofun⟩
    | control command =>
      cases command with
      | begin =>
        cases accepted with
        | false => exact .inl ⟨h, nofun⟩
        | true =>
          cases inside with
          | none => exact .inr ⟨o, ended, rfl, Option.some.inj h⟩
          | some opener => exact .inl ⟨h, nofun⟩
      | commit =>
        by_cases hended : (accepted || ended) = true
        · cases (if_pos hended).symm.trans h
        · exact .inl ⟨(if_neg hended).symm.trans h, hended⟩
      | rollback =>
        by_cases hended : (accepted || ended) = true
        · cases (if_pos hended).symm.trans h
        · exact .inl ⟨(if_neg hended).symm.trans h, hended⟩
  | sent o r => exact .inl ⟨h, nofun⟩
  | heard o r accepted => exact .inl ⟨h, nofun⟩
  | dropped o r => exact .inl ⟨h, nofun⟩
  | released hold l => exact .inl ⟨h, nofun⟩

private theorem foldl_turn_of_not_ends {hold : Nat} {log : List (Incident π)} (h : ∀ i ∈ log, ¬ i.Ends) :
    log.foldl Incident.turn (some hold) = some hold := by
  induction log with
  | nil => rfl
  | cons i rest ih =>
    rw [List.foldl_cons, turn_of_not_ends (h i List.mem_cons_self)]
    exact ih fun j hj => h j (List.mem_cons_of_mem i hj)

private theorem foldl_turn_eq_some {inside : Option Nat} {hold : Nat} {log : List (Incident π)}
    (h : log.foldl Incident.turn inside = some hold) :
    (inside = some hold ∧ ∀ i ∈ log, ¬ i.Ends) ∨
      ∃ before o ended since, log = before ++ .executed o (.control .begin) true ended :: since ∧ o.hold = hold ∧
        ∀ i ∈ since, ¬ i.Ends := by
  induction log generalizing inside with
  | nil => exact .inl ⟨h, nofun⟩
  | cons i rest ih =>
    rcases ih h with ⟨hinside, hrest⟩ | ⟨before, o, ended, since, rfl, ho, hsince⟩
    · rcases turn_eq_some hinside with ⟨hinside, hi⟩ | ⟨o, ended, rfl, ho⟩
      · exact .inl ⟨hinside, List.forall_mem_cons.mpr ⟨hi, hrest⟩⟩
      · exact .inr ⟨[], o, ended, rest, rfl, ho, hrest⟩
    · exact .inr ⟨i :: before, o, ended, since, rfl, ho, hsince⟩

private theorem Sound.of_append {before rest : List (Incident π)} (h : Sound (before ++ rest)) : Sound before := by
  intro earlier i since hlog
  exact h earlier i (since ++ rest) (by simp [hlog])

/-- While no transaction is lost, the server is inside the one that has begun and not ended. -/
theorem opened_eq_some_iff {log : List (Incident π)} (h : Sound log) (hlost : ∀ hold, ¬ Lost log hold)
    (hold : Nat) : opened log = some hold ↔ Open log hold := by
  constructor
  · intro hopened
    rcases foldl_turn_eq_some hopened with ⟨hinside, -⟩ | ⟨before, o, ended, since, rfl, rfl, hsince⟩
    · cases hinside
    · cases o with
      | driver hold => exact ⟨before, ended, since, rfl, hsince⟩
      | transaction hold => exact absurd rfl (h before _ since rfl).1
  · rintro ⟨before, ended, since, rfl, hsince⟩
    have hbefore : opened before = none := by
      refine Option.eq_none_iff_forall_ne_some.mpr fun opener hopened => ?_
      rcases h before _ since rfl with hrollback | hcalm
      · cases hrollback
      · exact hlost opener (List.mem_append_left _ (hcalm opener hopened))
    have hbegun : opened (before ++ [.executed (.driver hold) (.control .begin) true ended]) = some hold := by
      rw [opened_snoc, hbefore]
      rfl
    unfold opened at hbegun ⊢
    rw [List.append_cons, List.foldl_append, hbegun]
    exact foldl_turn_of_not_ends hsince

/-- A rollback was executed with success, and its caller heard of it. -/
def RolledBack (log : List (Incident π)) : Prop :=
  ∃ before g ended between g' since, log = before ++ .executed (.driver g) (.control .rollback) true ended ::
    (between ++ .heard (.driver g') (.control .rollback) true :: since)

private theorem turnDebt_eq_settled {d : Debt} {i : Incident π} (h : i.turnDebt d = .settled) :
    d = .settled ∨ d = .paid ∧ ∃ g, i = .heard (.driver g) (.control .rollback) true := by
  unfold Incident.turnDebt at h
  split at h
  · cases h
  · cases d <;> simp_all
  · cases d <;> simp_all
  · exact .inl h

private theorem turnDebt_eq_paid {d : Debt} {i : Incident π} (h : i.turnDebt d = .paid) :
    d = .paid ∨ ∃ g ended, i = .executed (.driver g) (.control .rollback) true ended := by
  unfold Incident.turnDebt at h
  split at h
  · cases h
  · cases d <;> simp_all
  · cases d <;> simp_all
  · exact .inl h

private theorem heard_of_settled {d : Debt} {log : List (Incident π)} (hd : d ≠ .settled)
    (h : log.foldl Incident.turnDebt d = .settled) :
    ∃ before g since, log = before ++ .heard (.driver g) (.control .rollback) true :: since := by
  induction log generalizing d with
  | nil => exact absurd h hd
  | cons i rest ih =>
    by_cases hi : i.turnDebt d = .settled
    · rcases turnDebt_eq_settled hi with hsettled | ⟨-, g, rfl⟩
      · exact absurd hsettled hd
      · exact ⟨[], g, rest, rfl⟩
    · obtain ⟨before, g, since, rfl⟩ := ih hi h
      exact ⟨i :: before, g, since, rfl⟩

/-- What is owed is settled only by a rollback. -/
theorem rolledBack_of_settled {log : List (Incident π)} (h : log.foldl Incident.turnDebt .owed = .settled) :
    RolledBack log := by
  induction log with
  | nil => cases h
  | cons i rest ih =>
    cases hi : i.turnDebt .owed with
    | settled =>
      rcases turnDebt_eq_settled hi with howed | ⟨hpaid, -⟩
      · cases howed
      · cases hpaid
    | owed =>
      rw [List.foldl_cons, hi] at h
      obtain ⟨before, g, ended, between, g', since, rfl⟩ := ih h
      exact ⟨i :: before, g, ended, between, g', since, rfl⟩
    | paid =>
      rw [List.foldl_cons, hi] at h
      rcases turnDebt_eq_paid hi with howed | ⟨g, ended, rfl⟩
      · cases howed
      · obtain ⟨between, g', since, rfl⟩ := heard_of_settled (show Debt.paid ≠ .settled from nofun) h
        exact ⟨[], g, ended, between, g', since, rfl⟩

namespace Sharing

variable {s : Server σ π} {S : Sharing π}

private theorem Phase.leases_le_one (h : S.Phase) : S.leases.length ≤ 1 := by
  have horphaned {P : List (Pending π)} (hP : Orphaned P) :
      P.filterMap (fun p => p.waiter.bind Prod.fst) = [] := by
    refine List.filterMap_eq_nil_iff.mpr fun p hp => ?_
    rw [hP p hp]
    rfl
  cases h with
  | free h => simp [leases, h.transactions, h.answered, horphaned h.orphaned]
  | asking h hanswered hpending => simp [leases, h.transactions, hanswered, hpending, horphaned h.orphaned]
  | told h hpending hanswered => simp [leases, h.transactions, hpending, hanswered]
  | lent h =>
    have hpending : S.pending.filterMap (fun p => p.waiter.bind Prod.fst) = [] := by
      refine List.filterMap_eq_nil_iff.mpr fun p hp => ?_
      rcases h.pending p hp with hwaiter | ⟨-, next, hwaiter, -⟩
      · rw [hwaiter]
        rfl
      · rw [hwaiter]
        rfl
    have hanswered : S.answered.filterMap Answered.lease = [] :=
      List.filterMap_eq_nil_iff.mpr fun a ha => (h.answered a ha).2.1
    simp [leases, h.transactions, hpending, hanswered]

def compliant : Server Unit Unit where
  prepare _ server := (some (), server)
  params _ := []
  columns _ := []
  run _ _ server := (some ⟨[], ""⟩, server)
  simple _ server := (true, server)

/-- A caller has begun a transaction, and nothing else has happened. -/
def begun : Sharing Unit where
  connection := ⟨true, false⟩
  holds := 1
  waiting := []
  transactions := [(0, ⟨true⟩)]
  pending := []
  answered := []
  log :=
    [.sent (.driver 0) (.control .begin), .executed (.driver 0) (.control .begin) true false,
      .heard (.driver 0) (.control .begin) true]

private theorem reachable_begun : Reachable compliant begun := by
  have hcalled := Reachable.step (.start (s := compliant)) (.call .begin)
  have hasked := Reachable.step hcalled (@Step.acquire _ _ _ _ [] [] _ _ _ rfl rfl)
  have htold := Reachable.step hasked (@Step.execute _ _ _ _ _ [] rfl (some ()) false)
  have hbegun := Reachable.step htold (@Step.resume _ _ _ _ [] [] _ rfl)
  exact hbegun

/-- One lease exists at most, and a statement is served inside a transaction just if it comes from that
transaction. -/
theorem Reachable.exclusive (h : Reachable s S) (hlost : ∀ hold, ¬ Lost S.log hold) :
    S.leases.length ≤ 1 ∧
      ∀ before o r accepted ended since, S.log = before ++ .executed o r accepted ended :: since →
        r.OfStatement → ∀ hold, Open before hold ↔ o = .transaction hold := by
  refine ⟨h.phase.leases_le_one, fun before o r accepted ended since hlog hr hold => ?_⟩
  have hsound := h.phase.steady.sound
  have hbefore : ∀ hold, ¬ Lost before hold := by
    intro hold hmem
    exact hlost hold (hlog ▸ List.mem_append_left _ hmem)
  have hexpected : Expected before (opened before) o r := hsound before _ since hlog
  rw [hlog] at hsound
  rw [← opened_eq_some_iff hsound.of_append hbefore]
  cases o with
  | driver hold' =>
    refine ⟨fun hopened => ?_, nofun⟩
    rcases hexpected with hrollback | hcalm
    · exact absurd hrollback (hr .rollback)
    · exact absurd (hcalm hold hopened) (hbefore hold)
  | transaction hold' =>
    obtain ⟨opener, hopened, rfl | hlost⟩ := hexpected.2 hr
    · rw [hopened, Option.some.injEq, Origin.transaction.injEq]
    · exact absurd hlost (hbefore opener)

theorem exclusive_statement : ∃ S : Sharing Unit, Reachable compliant S ∧
    S.log = begun.log ++ [.sent (.transaction 0) (.prepare "SELECT 1"),
      .executed (.transaction 0) (.prepare "SELECT 1") true false] ∧
    S.leases.length ≤ 1 ∧ Open (begun.log ++ [.sent (.transaction 0) (.prepare "SELECT 1")]) 0 := by
  have hasked := Reachable.step reachable_begun
    (@Step.statement _ _ _ _ 0 ⟨true⟩ _ List.mem_cons_self (.execute ⟨"SELECT 1", []⟩))
  have htold := Reachable.step hasked (@Step.execute _ _ _ _ _ [] rfl (some ()) false)
  have hlost (hold : Nat) : ¬ Lost (begun.log ++ [.sent (.transaction 0) (.prepare "SELECT 1"),
      .executed (.transaction 0) (.prepare "SELECT 1") true false]) hold := by
    simp [Lost, begun]
  obtain ⟨hleases, hserved⟩ := htold.exclusive hlost
  exact ⟨_, htold, rfl, hleases, (hserved _ _ _ _ _ [] rfl nofun 0).mpr rfl⟩

/-- What is sent or served through the driver, a rollback apart, finds no transaction open but a lost one;
whoever gives the connection up inside any other marks it; and after a mark nothing is sent but rollbacks,
until one succeeds. -/
theorem Reachable.driver_outside (h : Reachable s S) :
    (∀ before g r since hold, S.log = before ++ .sent (.driver g) r :: since → r ≠ .control .rollback →
      opened before = some hold → Lost before hold) ∧
    (∀ before g r accepted ended since hold,
      S.log = before ++ .executed (.driver g) r accepted ended :: since → r ≠ .control .rollback →
        opened before = some hold → Lost before hold) ∧
    (∀ before g l since hold, S.log = before ++ .released g l :: since → opened before = some hold →
      l.inTransaction = true ∨ Lost before hold) ∧
    ∀ before g between o r since, S.log = before ++ .released g ⟨true⟩ :: (between ++ .sent o r :: since) →
      RolledBack between ∨ ∃ g', o = .driver g' ∧ r = .control .rollback := by
  have hsound := h.phase.steady.sound
  refine ⟨?_, ?_, ?_, ?_⟩
  · intro before g r since hold hlog hr hopened
    exact (hsound before _ since hlog).2 g rfl hr hold hopened
  · intro before g r accepted ended since hold hlog hr hopened
    rcases hsound before _ since hlog with hrollback | hcalm
    · exact absurd hrollback hr
    · exact hcalm hold hopened
  · intro before g l since hold hlog hopened
    exact (hsound before _ since hlog).imp_right fun hcalm => hcalm hold hopened
  · intro before g between o r since hlog
    have hlog' : S.log = (before ++ .released g ⟨true⟩ :: between) ++ .sent o r :: since := by simpa using hlog
    have hsent := (hsound _ _ since hlog').1
    by_cases hdebt : debt (before ++ .released g ⟨true⟩ :: between) = .settled
    · refine .inl (rolledBack_of_settled ?_)
      rw [debt, List.foldl_append, List.foldl_cons] at hdebt
      exact hdebt
    · exact .inr (hsent hdebt)

/-- A transaction that was abandoned is rolled back before the next statement. -/
theorem driver_outside_abandoned : ∃ (S : Sharing Unit) (between : List (Incident Unit)),
    Reachable compliant S ∧ S.log = begun.log ++ .released 0 ⟨true⟩ ::
      (between ++ [.sent (.driver 1) (.prepare "SELECT 1")]) ∧ RolledBack between := by
  have hfree := Reachable.step reachable_begun (@Step.abandon _ _ _ _ [] [] 0 ⟨true⟩ rfl ⟨nofun, nofun⟩)
  have hcalled := Reachable.step hfree (.call (.execute ⟨"SELECT 1", []⟩))
  have hasked := Reachable.step hcalled (@Step.acquire _ _ _ _ [] [] _ _ _ rfl rfl)
  have htold := Reachable.step hasked (@Step.execute _ _ _ _ _ [] rfl (some ()) false)
  have hcleared := Reachable.step htold (@Step.resume _ _ _ _ [] [] _ rfl)
  have hrolled := hcleared.driver_outside.2.2.2 begun.log 0
    [.sent (.driver 1) (.control .rollback), .executed (.driver 1) (.control .rollback) true false,
      .heard (.driver 1) (.control .rollback) true] (.driver 1) (.prepare "SELECT 1") [] rfl
  exact ⟨_, _, hcleared, rfl, hrolled.resolve_right (by simp)⟩

/-- A caller is given up before it hears that its `BEGIN` was accepted. The next statement is sent inside the
transaction, which nobody has rolled back. -/
theorem sent_inside_lost : ∃ (S : Sharing Unit) (before : List (Incident Unit)),
    Reachable compliant S ∧ S.log = before ++ [.sent (.driver 1) (.prepare "SELECT 1")] ∧
      opened before = some 0 ∧ .released 0 ⟨false⟩ ∈ before := by
  have hcalled := Reachable.step (.start (s := compliant)) (.call .begin)
  have hasked := Reachable.step hcalled (@Step.acquire _ _ _ _ [] [] _ _ _ rfl rfl)
  have htold := Reachable.step hasked (@Step.execute _ _ _ _ _ [] rfl (some ()) false)
  have hmissed := Reachable.step htold (@Step.miss _ _ _ _ [] [] _ rfl)
  have hcalled' := Reachable.step hmissed (.call (.execute ⟨"SELECT 1", []⟩))
  have hsent := Reachable.step hcalled' (@Step.acquire _ _ _ _ [] [] _ _ _ rfl rfl)
  exact ⟨_, [.sent (.driver 0) (.control .begin), .executed (.driver 0) (.control .begin) true false,
    .dropped (.driver 0) (.control .begin), .released 0 ⟨false⟩], hsent, rfl, rfl, by simp⟩

end Sharing

end EntitySql.Postgres
