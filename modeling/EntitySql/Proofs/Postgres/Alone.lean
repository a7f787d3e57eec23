import EntitySql.Postgres.Client
import EntitySql.Proofs.Postgres.Progress

namespace EntitySql.Postgres

variable {σ π β : Type}

private theorem Standing.holding_next_iff {tx marked : Bool} {st : Standing} {r : Request π} (h : st.May tx marked r)
    (accepted : Bool) : (st.next r accepted).Holding ↔ st.Holding := by
  cases r with
  | prepare sql => rfl
  | run prepared cells => rfl
  | control command =>
    cases st with
    | apart => exact h.elim
    | borrowed => exact h.elim
    | clear => cases command <;> cases accepted <;> simp [Holding, next]
    | due => cases command <;> cases accepted <;> simp [Holding, next]
    | within => cases command <;> cases accepted <;> simp [Holding, next]

def messages (events : List (Event Message)) : List Message :=
  events.filterMap fun
    | .own message => some message
    | _ => none

namespace Sharing

def sentMessages (log : List (Incident π)) : List Message :=
  log.filterMap fun
    | .sent _ r => some r.message
    | _ => none

/-- A shared connection with which nobody is busy. -/
structure AtRest (s : Server σ π) (S : Sharing π) (c : Connection) : Prop where
  reachable : Reachable s S
  waiting : S.waiting = []
  pending : S.pending = []
  answered : S.answered = []
  connection : S.connection = c

def Follows (s : Server σ π) (S : Sharing π) (reply : Reply (Client σ) Message β) : Prop :=
  ∃ S' : Sharing π, AtRest s S' reply.state.connection ∧
    sentMessages S'.log = sentMessages S.log ++ messages reply.events

variable {s : Server σ π}

def exchange (S : Sharing π) (o : Origin) (r : Request π) (accepted : Bool) : Sharing π :=
  { S with log := S.log ++ [.sent o r] ++ [.executed o r accepted false] ++ [.heard o r accepted] }

/-- Nobody comes between a request and its answer. -/
theorem Reachable.answered {o : Origin} {r : Request π} {next : Option r.Result → Task π Unit} {S : Sharing π}
    {lease? : Option Lease} (hpending : S.pending = []) (hanswered : S.answered = [])
    (h : Reachable s (S.proceed o (.ask r next) lease?)) (answer : Option r.Result) :
    Reachable s (proceed o (next answer) lease? (S.exchange o r answer.isSome)) := by
  obtain ⟨connection, holds, waiting, transactions, pending, answered, log⟩ := S
  subst hpending hanswered
  have hexecuted := Reachable.step h (@Step.execute _ _ _ _ _ [] rfl answer false)
  have hheard := Reachable.step hexecuted (@Step.resume _ _ _ _ [] [] _ rfl)
  exact hheard

/-- A task that nobody interferes with. It has the lease in hand just where its standing says so. -/
theorem follows_perform {t : Task π Unit} {tx marked : Bool} {post : Standing → Bool → Except Error Unit → Prop}
    {st : Standing} (hkeeps : t.Keeps tx post st marked) {o : Origin} {S : Sharing π} {lease? : Option Lease}
    {l : Lease} (hheld : st.Holding → lease? = some l) (hnone : ¬ st.Holding → lease? = none)
    (hwaiting : S.waiting = []) (hpending : S.pending = []) (hanswered : S.answered = [])
    (h : Reachable s (S.proceed o t lease?)) (server : σ) :
    Follows s S (Client.perform s id t l ⟨S.connection, server⟩) := by
  induction t generalizing st marked o S lease? l server with
  | done x =>
    cases lease? with
    | none => exact ⟨S, ⟨h, hwaiting, hpending, hanswered, rfl⟩, (List.append_nil _).symm⟩
    | some l' => exact ⟨_, ⟨h, hwaiting, hpending, hanswered, rfl⟩, (List.append_nil _).symm⟩
  | acquire next ih =>
    obtain ⟨⟨rfl, -⟩, hclear, hdue⟩ := hkeeps
    obtain ⟨connection, holds, waiting, transactions, pending, answered, log⟩ := S
    subst hwaiting hpending hanswered
    rw [Client.perform]
    dsimp only
    cases hc : connection.acquire? with
    | none =>
      have hleft := Reachable.step h (@Step.leave _ _ _ _ [] [] _ rfl)
      exact ⟨_, ⟨hleft, rfl, rfl, rfl, rfl⟩, (List.append_nil _).symm⟩
    | some taken =>
      obtain ⟨c, abandoned⟩ := taken
      have htaken := Reachable.step h (@Step.acquire _ _ _ _ [] [] _ _ _ rfl hc)
      have hnext : ∃ st, st.Holding ∧ (next abandoned).Keeps tx post st false := by
        cases abandoned with
        | false => exact ⟨.clear, .inl rfl, hclear⟩
        | true => exact ⟨.due, .inr (.inl rfl), hdue⟩
      obtain ⟨st, hst, hkeeps⟩ := hnext
      obtain ⟨S', hrest, hsent⟩ := ih abandoned hkeeps (fun _ => rfl) (fun hst' => absurd hst hst') rfl rfl rfl
        htaken server
      exact ⟨S', hrest, hsent⟩
  | mark inTransaction next ih =>
    rw [Sharing.proceed, hheld hkeeps.1] at h
    exact ih hkeeps.2 (fun _ => rfl) (fun hst => absurd hkeeps.1 hst) hwaiting hpending hanswered h server
  | warn next ih =>
    obtain ⟨S', hrest, hsent⟩ := ih hkeeps hheld hnone hwaiting hpending hanswered h server
    exact ⟨S', hrest, hsent⟩
  | ask r next ih =>
    have hheard := h.answered hpending hanswered (s.answer r server).1
    have hnext := Standing.holding_next_iff hkeeps.1 (s.answer r server).1.isSome
    obtain ⟨S', hrest, hsent⟩ := ih (S := S.exchange o r (s.answer r server).1.isSome) (s.answer r server).1
      (hkeeps.2 _) (fun hst => hheld (hnext.mp hst)) (fun hst => hnone fun hst' => hst (hnext.mpr hst')) hwaiting
      hpending hanswered hheard (s.answer r server).2
    refine ⟨S', hrest, hsent.trans ?_⟩
    have hlog : sentMessages (S.exchange o r (s.answer r server).1.isSome).log =
        sentMessages S.log ++ [r.message] := by
      simp [sentMessages, exchange]
    rw [hlog, List.append_assoc]
    rfl
  | release next ih =>
    rw [Sharing.proceed, hheld hkeeps.1] at h
    obtain ⟨S', hrest, hsent⟩ := ih (S := S.giveUp o.hold (some l)) hkeeps.2.2 nofun (fun _ => rfl) hwaiting
      hpending hanswered h server
    have hlog : sentMessages (S.log ++ [.released o.hold l]) = sentMessages S.log := by simp [sentMessages]
    exact ⟨S', hrest, hlog ▸ hsent⟩

end Sharing

namespace Client

variable {α γ : Type} (s : Server σ π) (observe : Message → α)

private theorem perform_quiet (t : Task π β) (l : Lease) (c : Client σ) :
    (perform s observe t l c).state = (perform s observe t.quiet l c).state ∧
      (perform s observe t l c).events = (perform s observe t.quiet l c).events := by
  induction t generalizing l c with
  | done x => exact ⟨rfl, rfl⟩
  | acquire next ih =>
    simp only [Task.quiet, Task.after, perform]
    cases c.connection.acquire? with
    | none => exact ⟨rfl, rfl⟩
    | some taken => exact ih taken.2 ⟨false⟩ _
  | mark inTransaction next ih => exact ih ⟨inTransaction⟩ c
  | warn next ih =>
    obtain ⟨hstate, hevents⟩ := ih l c
    exact ⟨hstate, congrArg (Event.abandoned :: ·) hevents⟩
  | ask r next ih =>
    obtain ⟨hstate, hevents⟩ := ih (s.answer r c.server).1 l { c with server := (s.answer r c.server).2 }
    exact ⟨hstate, congrArg (Event.own (observe r.message) :: ·) hevents⟩
  | release next ih => exact ih l _

private theorem bind_pure (call : Call (Client σ) α β) (f : β → γ) (c : Client σ) :
    (call >>= fun b => pure (f b)) c =
      ⟨(call c).state, (call c).events, (call c).elapsed, (call c).result.map (Except.map f)⟩ := by
  show Call.bind call (fun b => Call.pure (f b)) c = _
  unfold Call.bind
  cases hcall : call c with
  | mk state events elapsed result =>
    cases result with
    | none => rfl
    | some x =>
      cases x with
      | error e => rfl
      | ok b => simp [Call.pure, Except.map]

end Client

namespace Sharing

variable {s : Server σ π} {S : Sharing π} {c : Client σ}

private theorem Follows.congr {γ : Type} {reply : Reply (Client σ) Message β} {reply' : Reply (Client σ) Message γ}
    (h : Follows s S reply) (hstate : reply'.state = reply.state) (hevents : reply'.events = reply.events) :
    Follows s S reply' := by
  obtain ⟨S', hrest, hsent⟩ := h
  exact ⟨S', hstate ▸ hrest, hevents ▸ hsent⟩

private theorem Follows.map {γ : Type} {call : Call (Client σ) Message β} (h : Follows s S (call c)) (f : β → γ) :
    Follows s S ((call >>= fun b => pure (f b)) c) := by
  rw [Client.bind_pure]
  exact h.congr rfl rfl

private theorem Follows.of_quiet {t : Task π β} {l : Lease} (h : Follows s S (Client.perform s id t.quiet l c)) :
    Follows s S (Client.perform s id t l c) :=
  h.congr (Client.perform_quiet s id t l c).1 (Client.perform_quiet s id t l c).2

private theorem proceed_of_driver {o : Origin} {t : Task π Unit} (ht : t.OfDriver s) :
    S.proceed o t none = { S with waiting := S.waiting ++ [t] } := by
  cases ht with
  | query st => rfl
  | execute st => rfl
  | begin => rfl

private theorem follows_of_driver {t : Task π Unit} (ht : t.OfDriver s) (h : AtRest s S c.connection) (l : Lease) :
    Follows s S (Client.perform s id t l c) := by
  obtain ⟨connection, server⟩ := c
  have hcalled : Reachable s (S.proceed (.driver S.holds) t none) := by
    rw [proceed_of_driver ht]
    exact .step h.reachable (.call ht)
  have hconnection : S.connection = connection := h.connection
  subst hconnection
  have hkeeps : t.Keeps false Task.Final .apart false := ht.keeps
  exact follows_perform hkeeps nofun (fun _ => rfl) h.waiting h.pending h.answered hcalled server

/-- Every call of the driver of a client is a run of the shared connection. -/
theorem follows_driver (h : AtRest s S c.connection) :
    (∀ st, Follows s S ((Client.driver s id).query none st c)) ∧
      (∀ st, Follows s S ((Client.driver s id).execute none st c)) ∧
      Follows s S ((Client.driver s id).begin c) := by
  refine ⟨fun st => ?_, fun st => ?_, ?_⟩
  · exact (follows_of_driver (.query st) h ⟨false⟩).of_quiet.map Prod.fst
  · exact (follows_of_driver (.execute st) h ⟨false⟩).of_quiet.map Prod.fst
  · exact (follows_of_driver .begin h ⟨false⟩).map Prod.snd

private theorem follows_of_transaction {hold : Nat} {l : Lease} {t : Task π Unit} (ht : t.OfTransaction s)
    (h : AtRest s S c.connection) (hl : (hold, l) ∈ S.transactions) :
    Follows s S (Client.perform s id t l c) := by
  obtain ⟨connection, server⟩ := c
  have hconnection : S.connection = connection := h.connection
  subst hconnection
  have hkeeps : t.Keeps true Task.Final .borrowed false := ht.keeps
  exact follows_perform hkeeps nofun (fun _ => rfl) h.waiting h.pending h.answered
    (.step h.reachable (.statement hl ht)) server

private theorem AtRest.idle {connection : Connection} (h : AtRest s S connection) (hold : Nat) : S.Idle hold := by
  refine ⟨fun p hp => ?_, fun a ha => ?_⟩
  · cases h.pending ▸ hp
  · cases h.answered ▸ ha

private theorem follows_of_finish {hold : Nat} {l : Lease} {command : Control}
    (hcommand : command = .commit ∨ command = .rollback) (h : AtRest s S c.connection)
    (hl : (hold, l) ∈ S.transactions) : Follows s S (Client.perform s id (.finish command) l c) := by
  obtain ⟨connection, server⟩ := c
  have hconnection : S.connection = connection := h.connection
  subst hconnection
  obtain ⟨T, T', hT⟩ := List.append_of_mem hl
  obtain ⟨S', hrest, hsent⟩ := follows_perform (S := { S with transactions := T ++ T' })
    (Task.keeps_finish hcommand) (fun _ => rfl) (fun hst => absurd (.inr (.inr rfl)) hst) h.waiting h.pending
    h.answered (.step h.reachable (.finish hT (h.idle hold) hcommand)) server
  exact ⟨S', hrest, hsent⟩

private theorem follows_transaction {hold : Nat} {l : Lease} (h : AtRest s S c.connection)
    (hl : (hold, l) ∈ S.transactions) :
    (∀ st, Follows s S ((Client.driver s id).query (some l) st c)) ∧
      (∀ st, Follows s S ((Client.driver s id).execute (some l) st c)) ∧
      Follows s S ((Client.driver s id).commit l c) ∧ Follows s S ((Client.driver s id).rollback l c) := by
  refine ⟨fun st => ?_, fun st => ?_, ?_, ?_⟩
  · exact (follows_of_transaction (.query st) h hl).of_quiet.map Prod.fst
  · exact (follows_of_transaction (.execute st) h hl).of_quiet.map Prod.fst
  · exact (follows_of_finish (.inl rfl) h hl).map Prod.fst
  · exact (follows_of_finish (.inr rfl) h hl).map Prod.fst

private theorem atRest_abandon {hold : Nat} {l : Lease} (h : AtRest s S c.connection)
    (hl : (hold, l) ∈ S.transactions) :
    ∃ S' : Sharing π, AtRest s S' ((Client.driver s id).abandon l c).connection ∧
      sentMessages S'.log = sentMessages S.log := by
  obtain ⟨T, T', hT⟩ := List.append_of_mem hl
  refine ⟨_, ⟨.step h.reachable (.abandon hT (h.idle hold)), h.waiting, h.pending, h.answered, ?_⟩, ?_⟩
  · exact congrArg (Connection.release · l) h.connection
  · simp [giveUp, note, sentMessages]

private theorem atRest_start (server : σ) : AtRest s start (Client.idle server).connection :=
  ⟨.start, rfl, rfl, rfl, rfl⟩

/-- A connection at rest is free, or one transaction has it. -/
theorem AtRest.transactions_eq {connection : Connection} (h : AtRest s S connection) :
    connection.held = false ∧ S.transactions = [] ∨
      connection = ⟨true, false⟩ ∧ ∃ hold, S.transactions = [(hold, ⟨true⟩)] := by
  cases h.reachable.phase with
  | free hfree => exact .inl ⟨h.connection ▸ hfree.held, hfree.transactions⟩
  | asking _ _ hpending => simp [h.pending] at hpending
  | told _ _ hanswered => simp [h.answered] at hanswered
  | lent hlent => exact .inr ⟨h.connection ▸ hlent.connection, _, hlent.transactions⟩

end Sharing

namespace Client

variable {s : Server σ π} {c : Client σ} {l : Lease}

private theorem connection_perform {t : Task π β} {tx marked : Bool} {post : Standing → Bool → Except Error β → Prop}
    (hkeeps : t.Keeps tx post .borrowed marked) :
    (perform s id t l c).state.connection = c.connection := by
  induction t generalizing marked c with
  | done x => rfl
  | acquire next ih => cases hkeeps.1.1
  | mark inTransaction next ih => simpa [Standing.Holding] using hkeeps.1
  | warn next ih => exact ih hkeeps
  | ask r next ih =>
    have hnext := hkeeps.2 (s.answer r c.server).1
    rw [Standing.next_of_statement (Standing.ofStatement_of_borrowed hkeeps.1)] at hnext
    exact ih _ hnext
  | release next ih => simpa [Standing.Holding] using hkeeps.1

/-- A task that ends well while it has the connection in hand has it indeed, and the lease bears its mark. -/
theorem perform_ok {t : Task π β} {tx marked : Bool} {post : Standing → Bool → Except Error β → Prop}
    {st : Standing} (hkeeps : t.Keeps tx post st marked)
    (hheld : st.Holding → l = ⟨marked⟩ ∧ c.connection = ⟨true, false⟩) {b : β} {l' : Lease}
    (h : (perform s id t l c).result = some (.ok (b, l'))) :
    ∃ st' marked', post st' marked' (.ok b) ∧
      (st'.Holding → l' = ⟨marked'⟩ ∧ (perform s id t l c).state.connection = ⟨true, false⟩) := by
  induction t generalizing st marked l c with
  | done x =>
    cases x with
    | error e => cases h
    | ok b' =>
      cases h
      exact ⟨st, marked, hkeeps, hheld⟩
  | acquire next ih =>
    rw [perform] at h ⊢
    dsimp only at h ⊢
    cases hc : c.connection.acquire? with
    | none =>
      rw [hc] at h
      cases h
    | some taken =>
      obtain ⟨connection, abandoned⟩ := taken
      rw [hc] at h
      have htaken : connection = ⟨true, false⟩ := by
        unfold Connection.acquire? at hc
        split at hc
        · cases hc
        · cases hc
          rfl
      have hnext : ∃ st, (next abandoned).Keeps tx post st false := by
        cases abandoned with
        | false => exact ⟨.clear, hkeeps.2.1⟩
        | true => exact ⟨.due, hkeeps.2.2⟩
      obtain ⟨st, hnext⟩ := hnext
      exact ih abandoned hnext (fun _ => ⟨rfl, htaken⟩) h
  | mark inTransaction next ih => exact ih hkeeps.2 (fun hst => ⟨rfl, (hheld hst).2⟩) h
  | warn next ih => exact ih hkeeps hheld h
  | ask r next ih =>
    have hnext := Standing.holding_next_iff hkeeps.1 (s.answer r c.server).1.isSome
    exact ih _ (hkeeps.2 _) (fun hst => hheld (hnext.mp hst)) h
  | release next ih => exact ih hkeeps.2.2 nofun h

private theorem begin_ok (h : ((driver s id).begin c).result = some (.ok l)) :
    l = ⟨true⟩ ∧ ((driver s id).begin c).state.connection = ⟨true, false⟩ := by
  have heq : (driver s id).begin c = _ := bind_pure (perform s id .begin ⟨false⟩) Prod.snd c
  rw [heq] at h ⊢
  obtain ⟨x, hx, hl⟩ := Option.map_eq_some_iff.mp h
  cases x with
  | error e => cases hl
  | ok b =>
    cases hl
    have hkeeps : Task.begin.Keeps false _ .apart false := Task.keeps_begin (π := π)
    obtain ⟨st, marked, ⟨rfl, rfl⟩, hheld⟩ := perform_ok hkeeps nofun hx
    exact hheld (.inr (.inr rfl))

private theorem perform_blocked {next : Bool → Task π β} (hc : c.connection = ⟨true, false⟩) :
    perform s id (.acquire next) l c = ⟨c, [], 0, none⟩ := by
  rw [perform]
  dsimp only
  rw [hc]
  rfl

private theorem state_call (t : Task π β) : (call s id t l c).state = (perform s id t l c).state := by
  have heq : call s id t l c = _ := bind_pure (perform s id t l) Prod.fst c
  rw [heq]

/-- While a transaction has the connection, a statement leaves it alone, in whose name it may be. -/
theorem connection_statement {tx : Option Lease} (st : Statement) (hc : c.connection = ⟨true, false⟩) :
    ((driver s id).query tx st c).state.connection = c.connection ∧
      ((driver s id).execute tx st c).state.connection = c.connection := by
  cases tx with
  | none =>
    have hquery : perform s id (Task.query s st).leased ⟨false⟩ c = ⟨c, [], 0, none⟩ := perform_blocked hc
    have hexecute : perform s id (Task.execute s st).leased ⟨false⟩ c = ⟨c, [], 0, none⟩ := perform_blocked hc
    constructor
    · exact congrArg connection ((state_call _).trans (congrArg Reply.state hquery))
    · exact congrArg connection ((state_call _).trans (congrArg Reply.state hexecute))
  | some l =>
    have hmay (r : Request π) (hr : r.OfStatement) : Standing.borrowed.May true false r := by
      rcases hr.cases with ⟨sql, rfl⟩ | ⟨prepared, cells, rfl⟩ <;> rfl
    constructor
    · exact (congrArg connection (state_call _)).trans (connection_perform (Task.keeps_query s st hmay))
    · exact (congrArg connection (state_call _)).trans (connection_perform (Task.keeps_execute s st hmay))

private theorem begin_blocked (hc : c.connection = ⟨true, false⟩) :
    (driver s id).begin c = ⟨c, [], 0, none⟩ := by
  have hbegin : perform s id .begin ⟨false⟩ c = ⟨c, [], 0, none⟩ := perform_blocked hc
  have heq : (driver s id).begin c = _ := bind_pure (perform s id .begin ⟨false⟩) Prod.snd c
  rw [heq, hbegin]
  rfl

/-- How a client is used: one call after another, with the transaction that is open and the messages that were
sent. -/
inductive Used (s : Server σ π) (server : σ) : Client σ → Option Lease → List Message → Prop
  | start : Used s server (.idle server) none []
  | query {c : Client σ} {tx tx' : Option Lease} {sent : List Message} (st : Statement)
      (htx : tx' = none ∨ tx' = tx) (h : Used s server c tx sent) :
      Used s server ((driver s id).query tx' st c).state tx
        (sent ++ messages ((driver s id).query tx' st c).events)
  | execute {c : Client σ} {tx tx' : Option Lease} {sent : List Message} (st : Statement)
      (htx : tx' = none ∨ tx' = tx) (h : Used s server c tx sent) :
      Used s server ((driver s id).execute tx' st c).state tx
        (sent ++ messages ((driver s id).execute tx' st c).events)
  | begun {c : Client σ} {tx : Option Lease} {sent : List Message} {l : Lease} (h : Used s server c tx sent)
      (hok : ((driver s id).begin c).result = some (.ok l)) :
      Used s server ((driver s id).begin c).state (some l) (sent ++ messages ((driver s id).begin c).events)
  | refused {c : Client σ} {tx : Option Lease} {sent : List Message} (h : Used s server c tx sent)
      (hok : ∀ l, ((driver s id).begin c).result ≠ some (.ok l)) :
      Used s server ((driver s id).begin c).state tx (sent ++ messages ((driver s id).begin c).events)
  | commit {c : Client σ} {l : Lease} {sent : List Message} (h : Used s server c (some l) sent) :
      Used s server ((driver s id).commit l c).state none
        (sent ++ messages ((driver s id).commit l c).events)
  | rollback {c : Client σ} {l : Lease} {sent : List Message} (h : Used s server c (some l) sent) :
      Used s server ((driver s id).rollback l c).state none
        (sent ++ messages ((driver s id).rollback l c).events)
  | abandon {c : Client σ} {l : Lease} {sent : List Message} (h : Used s server c (some l) sent) :
      Used s server ((driver s id).abandon l c) none sent

/-- A transaction that has the connection is the one that is open there. -/
theorem mem_transactions {S : Sharing π} (hrest : Sharing.AtRest s S c.connection)
    (hl : l = ⟨true⟩ ∧ c.connection = ⟨true, false⟩) : ∃ hold, (hold, l) ∈ S.transactions := by
  obtain ⟨rfl, hc⟩ := hl
  rcases hrest.transactions_eq with ⟨hfree, -⟩ | ⟨-, hold, htx⟩
  · rw [hc] at hfree
    cases hfree
  · exact ⟨hold, htx ▸ List.mem_singleton_self _⟩

private theorem follows_statement {S : Sharing π} {tx tx' : Option Lease} (hrest : Sharing.AtRest s S c.connection)
    (hlease : ∀ l, tx = some l → l = ⟨true⟩ ∧ c.connection = ⟨true, false⟩) (htx : tx' = none ∨ tx' = tx)
    (st : Statement) :
    Sharing.Follows s S ((driver s id).query tx' st c) ∧ Sharing.Follows s S ((driver s id).execute tx' st c) := by
  cases tx' with
  | none =>
    obtain ⟨hquery, hexecute, -⟩ := Sharing.follows_driver hrest
    exact ⟨hquery st, hexecute st⟩
  | some l =>
    obtain rfl : some l = tx := htx.resolve_left nofun
    obtain ⟨hold, hl⟩ := mem_transactions hrest (hlease l rfl)
    obtain ⟨hquery, hexecute, -⟩ := Sharing.follows_transaction hrest hl
    exact ⟨hquery st, hexecute st⟩

/-- A client, however it is used, is a shared connection at rest, and sent what was sent there. -/
theorem Used.atRest {server : σ} {tx : Option Lease} {sent : List Message} (h : Used s server c tx sent) :
    ∃ S : Sharing π, Sharing.AtRest s S c.connection ∧ Sharing.sentMessages S.log = sent ∧
      ∀ l, tx = some l → l = ⟨true⟩ ∧ c.connection = ⟨true, false⟩ := by
  induction h with
  | start => exact ⟨.start, Sharing.atRest_start server, rfl, nofun⟩
  | query st htx h ih =>
    obtain ⟨S, hrest, rfl, hlease⟩ := ih
    obtain ⟨S', hrest', hsent⟩ := (follows_statement hrest hlease htx st).1
    refine ⟨S', hrest', hsent, fun l hl => ?_⟩
    obtain ⟨hmark, hc⟩ := hlease l hl
    exact ⟨hmark, (connection_statement st hc).1.trans hc⟩
  | execute st htx h ih =>
    obtain ⟨S, hrest, rfl, hlease⟩ := ih
    obtain ⟨S', hrest', hsent⟩ := (follows_statement hrest hlease htx st).2
    refine ⟨S', hrest', hsent, fun l hl => ?_⟩
    obtain ⟨hmark, hc⟩ := hlease l hl
    exact ⟨hmark, (connection_statement st hc).2.trans hc⟩
  | begun h hok ih =>
    obtain ⟨S, hrest, rfl, hlease⟩ := ih
    obtain ⟨S', hrest', hsent⟩ := (Sharing.follows_driver hrest).2.2
    refine ⟨S', hrest', hsent, fun l hl => ?_⟩
    cases hl
    exact begin_ok hok
  | refused h hok ih =>
    obtain ⟨S, hrest, rfl, hlease⟩ := ih
    obtain ⟨S', hrest', hsent⟩ := (Sharing.follows_driver hrest).2.2
    refine ⟨S', hrest', hsent, fun l hl => ?_⟩
    obtain ⟨hmark, hc⟩ := hlease l hl
    exact ⟨hmark, (begin_blocked hc).symm ▸ hc⟩
  | commit h ih =>
    obtain ⟨S, hrest, rfl, hlease⟩ := ih
    obtain ⟨hold, hl⟩ := mem_transactions hrest (hlease _ rfl)
    obtain ⟨S', hrest', hsent⟩ := (Sharing.follows_transaction hrest hl).2.2.1
    exact ⟨S', hrest', hsent, nofun⟩
  | rollback h ih =>
    obtain ⟨S, hrest, rfl, hlease⟩ := ih
    obtain ⟨hold, hl⟩ := mem_transactions hrest (hlease _ rfl)
    obtain ⟨S', hrest', hsent⟩ := (Sharing.follows_transaction hrest hl).2.2.2
    exact ⟨S', hrest', hsent, nofun⟩
  | abandon h ih =>
    obtain ⟨S, hrest, rfl, hlease⟩ := ih
    obtain ⟨hold, hl⟩ := mem_transactions hrest (hlease _ rfl)
    obtain ⟨S', hrest', hsent⟩ := Sharing.atRest_abandon hrest hl
    exact ⟨S', hrest', hsent, nofun⟩

end Client

end EntitySql.Postgres
