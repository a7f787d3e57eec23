import EntitySql.Proofs.Postgres.Phase

namespace EntitySql.Postgres.Sharing

variable {σ π : Type} {S : Sharing π}

theorem Phase.steady (h : S.Phase) : S.Steady := by
  cases h with
  | free h => exact h.toSteady
  | asking h => exact h.toSteady
  | told h => exact h.toSteady
  | lent h => exact h.toSteady

/-- A request that is sent from the standing of its sender is justified. -/
theorem justified_sent {log : List (Incident π)} {o : Origin} {r : Request π} {st : Standing} {marked : Bool}
    (hasks : st.Asks o marked r) (hfits : st.Fits log o.hold (opened log))
    (hdebt : debt log ≠ .settled → st = .due) : Justified log (.sent o r) := by
  refine ⟨fun howed => ?_, fun hold ho hr => ?_⟩
  · have hdue := hdebt howed
    subst hdue
    cases hasks with
    | @recover hold => exact ⟨hold, rfl, rfl⟩
  · cases hasks with
    | statement => exact hfits
    | begin => exact hfits
    | recover => exact absurd rfl hr
    | commit => cases ho
    | rollback => cases ho

/-- Whoever has the connection in hand goes on to ask, begins a transaction or gives the connection up. -/
theorem Working.proceed {o : Origin} {st : Standing} {t : Task π Unit} {marked : Bool}
    (h : S.Working o st S.pending) (hanswered : S.answered = []) (hdebt : debt S.log ≠ .settled → st = .due)
    (hkeeps : t.Keeps o.tx Task.Final st marked) : (S.proceed o t (some ⟨marked⟩)).Phase := by
  induction t generalizing marked with
  | done x =>
    rcases hkeeps with rfl | rfl | ⟨rfl, rfl⟩
    · simpa [Standing.Holding] using h.holding
    · simpa [Standing.Holding] using h.holding
    · have hsettled : debt S.log = .settled := by
        refine Decidable.byContradiction fun howed => ?_
        cases hdebt howed
      refine .lent
        { h.toSteady with
          connection := h.connection
          transactions := ?_
          pending := fun p hp => .inl (h.orphaned p hp)
          answered := fun a ha => absurd ha (hanswered ▸ List.not_mem_nil)
          leads := h.leads
          settled := hsettled }
      exact congrArg _ h.transactions
  | acquire next ih =>
    obtain ⟨⟨rfl, -⟩, -⟩ := hkeeps
    simpa [Standing.Holding] using h.holding
  | mark inTransaction next ih => exact ih hkeeps.2
  | warn next ih => exact ih hkeeps
  | ask r next ih =>
    have hasks := Standing.asks_of_may h.holding hkeeps.1
    have hlog : S.log ⊆ S.log ++ [.sent o r] := List.subset_append_left _ _
    refine .asking 
      { sound := h.sound.snoc (justified_sent hasks h.leads.now hdebt)
        waiting := h.waiting
        connection := h.connection
        transactions := h.transactions
        holding := h.holding
        orphaned := h.orphaned
        leads := h.leads.snoc rfl fun inside hfits => hfits.mono hlog } hanswered rfl hkeeps ?_
    intro howed
    refine hdebt fun hsettled => howed ?_
    exact (debt_snoc S.log _).trans hsettled
  | release next ih =>
    obtain ⟨-, hmarked, hnext⟩ := hkeeps
    refine (free_giveUp h.toSteady h.connection h.transactions hanswered h.orphaned ?_ ?_).proceed hnext
    · refine h.leads.mono (List.Subset.refl _) fun inside hfits hunmarked => ?_
      rcases hmarked with rfl | hmarked
      · exact hfits
      · exact absurd hmarked (by simp [hunmarked])
    · intro howed
      rcases hmarked with rfl | hmarked
      · cases hdebt howed
      · exact hmarked

/-- A statement in the name of a transaction asks and ends; the transaction keeps the connection. -/
theorem Lent.proceed {hold : Nat} {t : Task π Unit} (h : S.Lent hold)
    (hkeeps : t.Keeps true Task.Final .borrowed false) : (S.proceed (.transaction hold) t none).Phase := by
  induction t with
  | done x => exact .lent h
  | acquire next ih => cases hkeeps.1.1
  | mark inTransaction next ih => simpa [Standing.Holding] using hkeeps.1
  | warn next ih => exact ih hkeeps
  | ask r next ih =>
    have hr : r.OfStatement := Standing.ofStatement_of_borrowed hkeeps.1
    have hlog : S.log ⊆ S.log ++ [.sent (.transaction hold) r] := List.subset_append_left _ _
    refine .lent
      { sound := h.sound.snoc ⟨fun howed => absurd h.settled howed, fun _ ho => Origin.noConfusion ho⟩
        waiting := h.waiting
        connection := h.connection
        transactions := h.transactions
        pending := ?_
        answered := h.answered
        leads := ?_
        settled := (debt_snoc S.log _).trans h.settled }
    · intro p hp
      rcases List.mem_append.mp hp with hp | hp
      · exact h.pending p hp
      · rw [List.mem_singleton.mp hp]
        exact .inr ⟨rfl, next, rfl, hkeeps⟩
    · refine Leads.snoc (leads_requests_append h.leads fun inside hinside => ?_) rfl fun _ hinside => hinside
      refine ⟨⟨hr .begin, fun _ => hinside⟩, fun accepted ended => ?_⟩
      rw [turn_of_statement hr]
      exact hinside.mono hlog
  | release next ih => simpa [Standing.Holding] using hkeeps.1

private theorem Phase.withWaiting {W : List (Task π Unit)} (h : S.Phase)
    (hW : ∀ t ∈ W, t.Keeps false Task.Final .apart false) : ({ S with waiting := W } : Sharing π).Phase := by
  cases h with
  | free h => exact .free { h with waiting := hW }
  | asking h hanswered hpending hkeeps hdebt =>
    exact .asking { h with waiting := hW } hanswered hpending hkeeps hdebt
  | told h hpending hanswered hkeeps hmarked hdebt =>
    exact .told { h with waiting := hW } hpending hanswered hkeeps hmarked hdebt
  | lent h => exact .lent { h with waiting := hW }

private theorem Phase.free_of_acquire {c : Connection} {abandoned : Bool} (h : S.Phase)
    (hc : S.connection.acquire? = some (c, abandoned)) : S.Free := by
  cases h with
  | free h => exact h
  | asking h => cases h.connection ▸ hc
  | told h => cases h.connection ▸ hc
  | lent h => cases h.connection ▸ hc

private theorem Phase.lent_of_mem {hold : Nat} {l : Lease} (h : S.Phase) (hl : (hold, l) ∈ S.transactions) :
    S.Lent hold := by
  cases h with
  | free h => cases h.transactions ▸ hl
  | asking h => cases h.transactions ▸ hl
  | told h => cases h.transactions ▸ hl
  | lent h =>
    have heq := List.mem_singleton.mp (h.transactions ▸ hl)
    cases heq
    exact h

private theorem Phase.acquire {W W' : List (Task π Unit)} {next : Bool → Task π Unit} {c : Connection}
    {abandoned : Bool} (h : S.Phase) (hw : S.waiting = W ++ .acquire next :: W')
    (hc : S.connection.acquire? = some (c, abandoned)) :
    (proceed (.driver S.holds) (next abandoned) (some ⟨false⟩)
      { S with connection := c, holds := S.holds + 1, waiting := W ++ W' }).Phase := by
  have hfree := h.free_of_acquire hc
  have hacquired : c = ⟨true, false⟩ ∧ abandoned = S.connection.abandoned := by
    rw [Connection.acquire?, hfree.held] at hc
    cases hc
    exact ⟨rfl, rfl⟩
  obtain ⟨rfl, rfl⟩ := hacquired
  have hnext := (hfree.waiting (.acquire next) (by simp [hw])).2
  have hwaiting : ∀ t ∈ W ++ W', t.Keeps false Task.Final .apart false := by
    intro t ht
    exact hfree.waiting t (hw ▸ ((List.sublist_cons_self _ W').append_left W).subset ht)
  have hworking (st : Standing) (hst : st.Holding)
      (hfits : ∀ inside, (S.connection.abandoned = false → Calm S.log inside) → st.Fits S.log S.holds inside) :
      Working { S with connection := ⟨true, false⟩, holds := S.holds + 1, waiting := W ++ W' }
        (.driver S.holds) st S.pending :=
    { hfree with
      waiting := hwaiting
      connection := rfl
      holding := hst
      leads := hfree.leads.mono (List.Subset.refl _) hfits }
  cases habandoned : S.connection.abandoned with
  | false =>
    refine (hworking .clear (.inl rfl) fun inside hcalm => hcalm habandoned).proceed hfree.answered ?_ hnext.1
    intro howed
    exact absurd (hfree.owed howed) (by simp [habandoned])
  | true =>
    exact (hworking .due (.inr (.inl rfl)) fun _ _ => trivial).proceed hfree.answered (fun _ => rfl) hnext.2

private theorem eq_of_append_cons_eq_singleton {α : Type} {A A' : List α} {a b : α} (h : A ++ a :: A' = [b]) :
    A = [] ∧ a = b ∧ A' = [] := by
  cases A with
  | nil =>
    cases h
    exact ⟨rfl, rfl, rfl⟩
  | cons c A =>
    have hnil : A ++ a :: A' = [] := (List.cons.inj h).2
    simp at hnil

private theorem Lent.transactions_eq {T T' : List (Nat × Lease)} {hold : Nat} {l : Lease} (h : S.Lent hold)
    (hl : S.transactions = T ++ (hold, l) :: T') : T ++ T' = [] ∧ l = ⟨true⟩ := by
  obtain ⟨rfl, heq, rfl⟩ := eq_of_append_cons_eq_singleton (hl.symm.trans h.transactions)
  cases heq
  exact ⟨rfl, rfl⟩

/-- Once no statement is under way, the caller of the transaction has the connection in hand. -/
theorem Lent.working {hold : Nat} (h : S.Lent hold) (hi : S.Idle hold) :
    S.answered = [] ∧
      ({ S with transactions := [] } : Sharing π).Working (.transaction hold) .within S.pending := by
  constructor
  · refine List.eq_nil_iff_forall_not_mem.mpr fun a ha => ?_
    exact hi.2 a ha (h.answered a ha).1
  · refine
      { h with
        transactions := rfl
        holding := .inr (.inr rfl)
        orphaned := fun p hp => ?_ }
    rcases h.pending p hp with hwaiter | ⟨horigin, -⟩
    · exact hwaiter
    · exact hi.1 p hp horigin

private theorem Phase.finish {T T' : List (Nat × Lease)} {hold : Nat} {l : Lease} {command : Control} (h : S.Phase)
    (hl : S.transactions = T ++ (hold, l) :: T') (hi : S.Idle hold)
    (hcommand : command = .commit ∨ command = .rollback) :
    (proceed (.transaction hold) (.finish command) (some l) { S with transactions := T ++ T' }).Phase := by
  have hlent := h.lent_of_mem (show (hold, l) ∈ S.transactions by simp [hl])
  obtain ⟨hT, rfl⟩ := hlent.transactions_eq hl
  obtain ⟨hanswered, hworking⟩ := hlent.working hi
  rw [hT]
  exact hworking.proceed hanswered (fun howed => absurd hlent.settled howed) (Task.keeps_finish hcommand)

private theorem Phase.abandon {T T' : List (Nat × Lease)} {hold : Nat} {l : Lease} (h : S.Phase)
    (hl : S.transactions = T ++ (hold, l) :: T') (hi : S.Idle hold) :
    (giveUp { S with transactions := T ++ T' } hold (some l)).Phase := by
  have hlent := h.lent_of_mem (show (hold, l) ∈ S.transactions by simp [hl])
  obtain ⟨hT, rfl⟩ := hlent.transactions_eq hl
  obtain ⟨hanswered, hworking⟩ := hlent.working hi
  rw [hT]
  refine .free (free_giveUp hworking.toSteady hworking.connection rfl hanswered hworking.orphaned ?_ fun _ => rfl)
  exact hworking.leads.mono (List.Subset.refl _) fun _ _ => nofun

private theorem Working.note {o : Origin} {st : Standing} {P : List (Pending π)} {i : Incident π}
    (h : S.Working o st P) (hi : Justified S.log i) (hturn : i.turn (opened S.log) = opened S.log) :
    (S.note i).Working o st P :=
  { h with
    sound := h.sound.snoc hi
    leads := h.leads.snoc hturn fun _ hfits => hfits.mono (List.subset_append_left _ _) }

private theorem Lent.note {hold : Nat} {i : Incident π} (h : S.Lent hold) (hi : Justified S.log i)
    (hturn : i.turn (opened S.log) = opened S.log) (hdebt : i.turnDebt .settled = .settled) :
    (S.note i).Lent hold :=
  { h with
    sound := h.sound.snoc hi
    leads := h.leads.snoc hturn fun _ hinside => hinside.mono (List.subset_append_left _ _)
    settled := by
      show debt (S.log ++ [i]) = .settled
      rw [debt_snoc, h.settled, hdebt] }

private theorem Free.execute {o : Origin} {r : Request π} {P : List (Pending π)} (h : S.Free)
    (hp : S.pending = ⟨o, r, none⟩ :: P) (accepted ended : Bool) :
    (note { S with pending := P } (.executed o r accepted ended)).Free := by
  have hleads := h.leads
  rw [hp] at hleads
  refine
    { h with
      sound := h.sound.snoc hleads.1
      orphaned := fun q hq => h.orphaned q (hp ▸ List.mem_cons_of_mem _ hq)
      leads := hleads.executed accepted ended fun inside hcalm hfree =>
        (hcalm hfree).mono (List.subset_append_left _ _)
      owed := fun howed => h.owed ?_ }
  exact turnDebt_executed _ o r accepted ended (debt_snoc S.log _ ▸ howed)

/-- The server executes what was left of callers that were given up. -/
theorem Working.execute_orphan {o o' : Origin} {st : Standing} {r : Request π} {P : List (Pending π)}
    (h : S.Working o st (⟨o', r, none⟩ :: P)) (accepted ended : Bool) :
    (S.note (.executed o' r accepted ended)).Working o st P :=
  { h with
    sound := h.sound.snoc h.leads.1
    orphaned := fun q hq => h.orphaned q (List.mem_cons_of_mem _ hq)
    leads := h.leads.executed accepted ended fun _ hfits => hfits.mono (List.subset_append_left _ _) }

/-- The server executes the request of the holder. -/
theorem Working.execute {o : Origin} {st : Standing} {r : Request π} {marked : Bool} (h : S.Working o st [])
    (hasks : st.Asks o marked r) (accepted ended : Bool) :
    (S.note (.executed o r accepted ended)).Working o (st.next r accepted) [] := by
  obtain ⟨hexpected, hnext⟩ := fits_next hasks h.leads
  refine
    { h with
      sound := h.sound.snoc hexpected
      holding := hasks.holding_next accepted
      leads := ?_ }
  show (st.next r accepted).Fits _ _ (opened (S.log ++ [.executed o r accepted ended]))
  rw [opened_snoc]
  exact (hnext accepted ended).mono (List.subset_append_left _ _)

/-- A rollback that is owed stays owed until it is accepted. -/
theorem debt_executed {log : List (Incident π)} {o : Origin} {r : Request π} {st : Standing}
    {marked : Bool} (hasks : st.Asks o marked r) (hdebt : debt log ≠ .settled → st = .due)
    (accepted ended : Bool) (howed : debt (log ++ [.executed o r accepted ended]) ≠ .settled) :
    marked = true ∧ (st.next r accepted = .due ∨ debt (log ++ [.executed o r accepted ended]) = .paid ∧
      o.tx = false ∧ r = .control .rollback ∧ accepted = true) := by
  rw [debt_snoc] at howed ⊢
  have hbefore := turnDebt_executed _ o r accepted ended howed
  have hdue := hdebt hbefore
  subst hdue
  cases hasks with
  | recover =>
    cases accepted with
    | false => exact ⟨rfl, .inl rfl⟩
    | true => exact ⟨rfl, .inr ⟨if_neg hbefore, rfl, rfl, rfl⟩⟩

private theorem Lent.execute {hold : Nat} {p : Pending π} {P : List (Pending π)} (h : S.Lent hold)
    (hp : S.pending = p :: P) (answer : Option p.request.Result) (ended : Bool) :
    (Sharing.note
      { S with
        pending := P
        answered := S.answered ++ (p.waiter.map fun w =>
          ⟨p.origin, p.request, answer.isSome, w.1, w.2 answer⟩).toList }
      (.executed p.origin p.request answer.isSome ended)).Lent hold := by
  have hleads := h.leads
  rw [hp] at hleads
  have hsettled : debt (S.log ++ [.executed p.origin p.request answer.isSome ended]) = .settled := by
    refine Decidable.byContradiction fun howed => ?_
    rw [debt_snoc] at howed
    exact turnDebt_executed _ _ _ _ _ howed h.settled
  refine
    { h with
      sound := h.sound.snoc hleads.1
      pending := fun q hq => h.pending q (hp ▸ List.mem_cons_of_mem _ hq)
      answered := fun a ha => ?_
      leads := hleads.executed answer.isSome ended fun inside hinside =>
        hinside.mono (List.subset_append_left _ _)
      settled := hsettled }
  rcases List.mem_append.mp ha with ha | ha
  · exact h.answered a ha
  · rcases h.pending p (by simp [hp]) with hwaiter | ⟨horigin, next, hwaiter, hkeeps⟩
    · simp [hwaiter] at ha
    · simp only [hwaiter, Option.map_some, Option.toList_some, List.mem_singleton] at ha
      subst ha
      refine ⟨horigin, rfl, ?_⟩
      have hnext := hkeeps.2 answer
      rw [Standing.next_of_statement (Standing.ofStatement_of_borrowed hkeeps.1)] at hnext
      exact hnext

private theorem Phase.execute {p : Pending π} {P : List (Pending π)} (h : S.Phase) (hp : S.pending = p :: P)
    (answer : Option p.request.Result) (ended : Bool) :
    (Sharing.note
      { S with
        pending := P
        answered := S.answered ++ (p.waiter.map fun w =>
          ⟨p.origin, p.request, answer.isSome, w.1, w.2 answer⟩).toList }
      (.executed p.origin p.request answer.isSome ended)).Phase := by
  cases h with
  | free h =>
    obtain ⟨o, r, waiter⟩ := p
    have hwaiter : waiter = none := h.orphaned _ (by rw [hp]; exact List.mem_cons_self)
    subst hwaiter
    simpa using Phase.free (h.execute hp answer.isSome ended)
  | @asking o st P₀ r marked next h hanswered hpending hkeeps hdebt =>
    have hasks := Standing.asks_of_may h.holding hkeeps.1
    cases P₀ with
    | cons q P₀ =>
      obtain ⟨rfl, rfl⟩ := List.cons.inj (hp.symm.trans hpending)
      obtain ⟨o', r', waiter⟩ := p
      have hwaiter : waiter = none := h.orphaned _ List.mem_cons_self
      subst hwaiter
      have hworking := h.execute_orphan answer.isSome ended
      refine .asking { hworking with } (congrArg (· ++ []) hanswered) rfl hkeeps fun howed => ?_
      exact hdebt (turnDebt_executed _ _ _ _ _ (debt_snoc S.log _ ▸ howed))
    | nil =>
      obtain ⟨rfl, rfl⟩ := List.cons.inj (hp.symm.trans hpending)
      have hworking := h.execute hasks answer.isSome ended
      refine .told { hworking with } rfl (congrArg (· ++ [_]) hanswered) (hkeeps.2 answer) (fun hunmarked => ?_)
        fun howed => ?_
      · exact calm_of_dropped hasks hworking.leads hunmarked
      · exact debt_executed hasks hdebt answer.isSome ended howed
  | told h hpending => cases hp.symm.trans hpending
  | lent h => exact .lent (h.execute hp answer ended)

/-- The holder hears the answer. A rollback that it hears of settles what was owed. -/
theorem settled_heard {log : List (Incident π)} {o : Origin} {r : Request π} {st : Standing}
    {accepted marked : Bool} (hdebt : debt log ≠ .settled → marked = true ∧
      (st = .due ∨ debt log = .paid ∧ o.tx = false ∧ r = .control .rollback ∧ accepted = true))
    (howed : debt (log ++ [.heard o r accepted]) ≠ .settled) : st = .due := by
  rw [debt_snoc] at howed
  obtain ⟨-, hdue | ⟨hpaid, htx, rfl, rfl⟩⟩ := hdebt (turnDebt_heard _ o r accepted howed)
  · exact hdue
  · cases o with
    | driver hold => exact absurd (if_pos hpaid) howed
    | transaction hold => cases htx

private theorem Phase.resume {A A' : List (Answered π)} {a : Answered π} (h : S.Phase)
    (ha : S.answered = A ++ a :: A') :
    (Sharing.proceed a.origin a.task a.lease
      (Sharing.note { S with answered := A ++ A' } (.heard a.origin a.request a.accepted))).Phase := by
  cases h with
  | free h => simp [h.answered] at ha
  | asking h hanswered => simp [hanswered] at ha
  | @told o st r accepted marked t h hpending hanswered hkeeps hmarked hdebt =>
    obtain ⟨rfl, rfl, rfl⟩ := eq_of_append_cons_eq_singleton (ha.symm.trans hanswered)
    have hheard : Working
        (Sharing.note { S with answered := [] ++ [] } (.heard o r accepted)) o st S.pending := by
      rw [hpending]
      exact Working.note { h with } trivial rfl
    exact hheard.proceed rfl (settled_heard hdebt) hkeeps
  | lent h =>
    obtain ⟨horigin, hlease, hkeeps⟩ := h.answered a (by simp [ha])
    rw [horigin, hlease]
    refine Lent.proceed (Lent.note { h with answered := fun b hb => ?_ } trivial rfl rfl) hkeeps
    exact h.answered b (ha ▸ ((List.sublist_cons_self a A').append_left A).subset hb)

/-- The one whose caller still waits is the last of the requests. -/
theorem Orphaned.eq_last {P₀ P P' : List (Pending π)} {p q : Pending π} (h : Orphaned P₀)
    (hp : p.waiter ≠ none) (heq : P₀ ++ [q] = P ++ p :: P') : P₀ = P ∧ q = p ∧ P' = [] := by
  rcases List.eq_nil_or_concat P' with rfl | ⟨P'', last, rfl⟩
  · obtain ⟨hP, hq⟩ := List.append_inj' heq rfl
    exact ⟨hP, (List.cons.inj hq).1, rfl⟩
  · have heq' : P₀ ++ [q] = (P ++ p :: P'') ++ [last] := by simpa using heq
    obtain ⟨rfl, -⟩ := List.append_inj' heq' rfl
    exact absurd (h p (by simp)) hp

/-- Whether a caller waits makes no difference to the server. -/
theorem requests_orphan (P P' : List (Pending π)) (o : Origin) (r : Request π)
    (waiter : Option (Option Lease × (Option r.Result → Task π Unit))) :
    requests (P ++ ⟨o, r, none⟩ :: P') = requests (P ++ ⟨o, r, waiter⟩ :: P') := by
  simp [requests]

private theorem Phase.drop {P P' : List (Pending π)} {o : Origin} {r : Request π} {l : Option Lease}
    {next : Option r.Result → Task π Unit} (h : S.Phase)
    (hp : S.pending = P ++ ⟨o, r, some (l, next)⟩ :: P') :
    (giveUp (Sharing.note { S with pending := P ++ ⟨o, r, none⟩ :: P' } (.dropped o r)) o.hold l).Phase := by
  cases h with
  | free h => cases h.orphaned ⟨o, r, some (l, next)⟩ (by simp [hp])
  | @asking o' st P₀ r' marked next' h hanswered hpending hkeeps hdebt =>
    obtain ⟨rfl, heq, rfl⟩ := h.orphaned.eq_last (by simp) (hpending.symm.trans hp)
    cases heq
    have hasks := Standing.asks_of_may h.holding hkeeps.1
    refine .free (free_giveUp { sound := h.sound.snoc trivial, waiting := h.waiting } h.connection
      h.transactions hanswered ?_ ?_ fun howed => ?_)
    · intro q hq
      rcases List.mem_append.mp hq with hq | hq
      · exact h.orphaned q hq
      · rw [List.mem_singleton.mp hq]
    · have hleads : Leads S.log (opened S.log) (requests (P₀ ++ [⟨o, r, none⟩]))
          fun inside => ∃ accepted, (st.next r accepted).Fits S.log o.hold inside := by
        refine leads_requests_append h.leads fun inside hfits => ?_
        obtain ⟨hexpected, hnext⟩ := fits_next hasks hfits
        exact ⟨hexpected, fun accepted ended => ⟨accepted, hnext accepted ended⟩⟩
      refine hleads.snoc rfl fun inside hfits hunmarked => ?_
      obtain ⟨accepted, hfits⟩ := hfits
      exact calm_of_dropped hasks hfits hunmarked
    · have hdue := hdebt fun hsettled => howed ((debt_snoc S.log _).trans hsettled)
      subst hdue
      cases hasks with
      | recover => rfl
  | told h hpending => simp [hpending] at hp
  | @lent hold h =>
    have hgiven : l = none := by
      rcases h.pending _ (hp ▸ List.mem_append_right P List.mem_cons_self) with hwaiter | ⟨-, _, hwaiter, -⟩
      · cases hwaiter
      · cases hwaiter
        rfl
    subst hgiven
    refine .lent (Lent.note { h with pending := fun q hq => ?_, leads := ?_ } trivial rfl rfl)
    · rcases List.mem_append.mp hq with hq | hq
      · exact h.pending q (hp ▸ List.mem_append_left _ hq)
      · rcases List.mem_cons.mp hq with rfl | hq
        · exact .inl rfl
        · exact h.pending q (hp ▸ List.mem_append_right P (List.mem_cons_of_mem _ hq))
    · show Leads S.log (opened S.log) (requests (P ++ ⟨o, r, none⟩ :: P')) _
      rw [requests_orphan P P' o r (some (none, next)), ← hp]
      exact h.leads

private theorem Phase.miss {A A' : List (Answered π)} {a : Answered π} (h : S.Phase)
    (ha : S.answered = A ++ a :: A') :
    (giveUp (Sharing.note { S with answered := A ++ A' } (.dropped a.origin a.request)) a.origin.hold
      a.lease).Phase := by
  cases h with
  | free h => simp [h.answered] at ha
  | asking h hanswered => simp [hanswered] at ha
  | told h hpending hanswered hkeeps hmarked hdebt =>
    obtain ⟨rfl, rfl, rfl⟩ := eq_of_append_cons_eq_singleton (ha.symm.trans hanswered)
    refine .free (free_giveUp { sound := h.sound.snoc trivial, waiting := h.waiting } h.connection
      h.transactions rfl ?_ ?_ fun howed => ?_)
    · intro q hq
      cases hpending ▸ hq
    · show Leads _ _ (requests S.pending) _
      rw [hpending]
      exact fun hunmarked => opened_snoc S.log _ ▸ hmarked hunmarked
    · exact (hdebt fun hsettled => howed ((debt_snoc S.log _).trans hsettled)).1
  | lent h =>
    obtain ⟨-, hlease, -⟩ := h.answered a (by simp [ha])
    rw [hlease]
    refine .lent (Lent.note { h with answered := fun b hb => ?_ } trivial rfl rfl)
    exact h.answered b (ha ▸ ((List.sublist_cons_self a A').append_left A).subset hb)

/-- Every step leads from a phase to a phase. -/
theorem Phase.step {s : Server σ π} {S' : Sharing π} (h : S.Phase) (hstep : Step s S S') : S'.Phase := by
  cases hstep with
  | call ht =>
    refine h.withWaiting fun t hmem => ?_
    rcases List.mem_append.mp hmem with hmem | hmem
    · exact h.steady.waiting t hmem
    · exact List.mem_singleton.mp hmem ▸ ht.keeps
  | @leave W W' t hw =>
    refine h.withWaiting fun u hmem => h.steady.waiting u ?_
    exact hw ▸ ((List.sublist_cons_self t W').append_left W).subset hmem
  | acquire hw hc => exact h.acquire hw hc
  | statement hl ht => exact (h.lent_of_mem hl).proceed ht.keeps
  | finish hl hi hcommand => exact h.finish hl hi hcommand
  | abandon hl hi => exact h.abandon hl hi
  | execute hp answer ended => exact h.execute hp answer ended
  | resume ha => exact h.resume ha
  | drop hp => exact h.drop hp
  | miss ha => exact h.miss ha

private theorem phase_start : (start (π := π)).Phase :=
  .free
    { sound := fun before i rest h => by simp [start] at h
      waiting := nofun
      held := rfl
      transactions := rfl
      answered := rfl
      orphaned := nofun
      leads := fun _ _ => nofun
      owed := fun howed => absurd rfl howed }

/-- Every state that is reached is in a phase. -/
theorem Reachable.phase {s : Server σ π} (h : Reachable s S) : S.Phase := by
  induction h with
  | start => exact phase_start
  | step _ hstep ih => exact ih.step hstep

end EntitySql.Postgres.Sharing
