import EntitySql.Proofs.Session.Transparency

namespace EntitySql

variable {σ τ α β γ : Type}

def Sighting.driverCall? : Sighting τ → Option (DriverCall τ)
  | .interceptor _ _ => none
  | .driver call => some call

def Watched.calls (w : Watched σ τ) : List (DriverCall τ) := w.sightings.filterMap Sighting.driverCall?

def statementsIn (tx : τ) (sent : List (Mode × Statement)) : List (DriverCall τ) :=
  sent.map fun (mode, statement) => .statement (some tx) mode statement

private theorem Watched.calls_see (w : Watched σ τ) (call : DriverCall τ) : (w.see (.driver call)).calls = w.calls ++
    [call] :=
  List.filterMap_append

/-- A run that calls the driver for nothing but statements in a transaction. -/
def Run.Sends (tx : τ) (r : Run (Watched σ τ) α β) : Prop :=
  ∀ s, ∃ sent, (r s).2.driver.calls = s.driver.calls ++ statementsIn tx sent

namespace Run.Sends

variable {tx : τ} {r : Run (Watched σ τ) α β}

private theorem quiet (h : ∀ s, (r s).2.driver.calls = s.driver.calls) : Sends tx r :=
  fun s => ⟨[], by rw [h, statementsIn, List.map_nil, List.append_nil]⟩

theorem bind (h : Sends tx r) {next : β → Run (Watched σ τ) α γ} (hnext : ∀ b, Sends tx (next b)) :
    Sends tx (r >>= next) := by
  intro s
  obtain ⟨sent, hsent⟩ := h s
  rcases hr : r s with ⟨_ | _ | b, s'⟩
  · rw [bind_of_none _ hr]
    rw [hr] at hsent
    exact ⟨sent, hsent⟩
  · rw [bind_of_error _ hr]
    rw [hr] at hsent
    exact ⟨sent, hsent⟩
  · rw [bind_of_ok _ hr]
    rw [hr] at hsent
    obtain ⟨more, hmore⟩ := hnext b s'
    refine ⟨sent ++ more, ?_⟩
    rw [hmore, hsent, statementsIn, statementsIn, statementsIn, List.map_append, List.append_assoc]

private theorem attempt (h : Sends tx r) : Sends tx r.attempt := by
  intro s
  obtain ⟨sent, hsent⟩ := h s
  refine ⟨sent, ?_⟩
  rcases hr : r s with ⟨_ | x, s'⟩
  · rw [attempt_of_none hr, ← hsent, hr]
  · rw [attempt_of_some hr, ← hsent, hr]

theorem note (events : List (Event α)) : Sends tx (Run.note events : Run (Watched σ τ) α Unit) := quiet fun _ => rfl

private theorem ofExcept (x : Except Error β) : Sends tx (Run.ofExcept x : Run (Watched σ τ) α β) := quiet fun _ => rfl

theorem statement (f : Call σ α β) (mode : Mode) (statement : Statement) :
    Sends tx (Run.call (f.watched (.statement (some tx) mode statement))) :=
  fun s => ⟨[(mode, statement)], s.driver.calls_see _⟩

end Run.Sends

open Run (Sends)

/-- An interceptor that leaves the driver to the rest of its chain, which it may call on as often as it likes. -/
def Interceptor.Lawful (i : Interceptor (Watched σ τ) α) : Prop :=
  ∀ (tx : τ) (next : Handler (Watched σ τ) α), (∀ ctx, Sends tx (next ctx)) → ∀ ctx, Sends tx (i next ctx)

private theorem Guard.lawful (g : Guard α) : Interceptor.Lawful (g.intercept : Interceptor (Watched σ τ) α) := by
  intro tx next h ctx
  cases g with
  | safeDelete =>
    simp only [Guard.intercept]
    split
    · exact (Sends.note _).bind fun _ => .quiet fun _ => rfl
    · exact h ctx
  | statementLog level limit =>
    exact Sends.bind (.quiet fun _ => rfl) fun sql => (Sends.note _).bind fun _ => h ctx
  | slowStatement threshold callback =>
    refine Sends.bind (.quiet fun _ => rfl) fun start => (h ctx).attempt.bind fun outcome =>
      Sends.bind (.quiet fun _ => rfl) fun stop => ?_
    split
    · exact Sends.bind (.quiet fun _ => rfl) fun sql => (Sends.note _).bind fun _ =>
        (Sends.note _).bind fun _ => .ofExcept _
    · exact .ofExcept _
  | stats =>
    exact Sends.bind (.quiet fun _ => rfl) fun start => (h ctx).attempt.bind fun outcome =>
      Sends.bind (.quiet fun _ => rfl) fun stop => Sends.bind (.quiet fun _ => rfl) fun _ => .ofExcept _
  | span limit =>
    refine Sends.bind (.quiet fun _ => rfl) fun sql => (Sends.note _).bind fun _ =>
      (h _).attempt.bind fun outcome => ?_
    cases outcome with
    | ok outcome => exact .quiet fun _ => rfl
    | error e => exact (Sends.note _).bind fun _ => .quiet fun _ => rfl

private theorem Interceptor.Lawful.watched {i : Interceptor (Watched σ τ) α} (h : i.Lawful) (place : Nat) :
    (Interceptor.watched place i).Lawful := by
  intro tx next hnext ctx s
  have hcalls : (s.driver.see (.interceptor place ctx.statement)).calls = s.driver.calls := by
    simp [Watched.calls, Watched.see, Sighting.driverCall?]
  rw [← hcalls]
  exact h tx next hnext ctx { s with driver := s.driver.see (.interceptor place ctx.statement) }

private theorem lawful_watchedFrom : ∀ (gs : List (Guard α)) (place : Nat),
    ∀ i ∈ (watchedFrom place gs : List (Interceptor (Watched σ τ) α)), i.Lawful
  | [], _, i, h => by cases h
  | g :: gs, place, i, h => by
    rcases List.mem_cons.mp h with rfl | h
    · exact g.lawful.watched place
    · exact lawful_watchedFrom gs (place + 1) i h

private theorem sends_ofDriver (d : Driver σ τ α) (tx : τ) (ctx : Context) :
    Sends tx (Handler.ofDriver d.watched (some tx) ctx) := by
  unfold Handler.ofDriver
  cases ctx.mode with
  | query => exact (Sends.statement _ _ _).bind fun _ => .quiet fun _ => rfl
  | execute => exact (Sends.statement _ _ _).bind fun _ => .quiet fun _ => rfl

private theorem sends_through {tx : τ} {last : Handler (Watched σ τ) α} (hlast : ∀ ctx, Sends tx (last ctx)) :
    ∀ {chain : List (Interceptor (Watched σ τ) α)}, (∀ i ∈ chain, i.Lawful) → ∀ ctx, Sends tx (last.through chain ctx)
  | [], _ => hlast
  | i :: _, h => h i List.mem_cons_self tx _ (sends_through hlast fun j hj => h j (List.mem_cons_of_mem i hj))

/-- The body of a transaction: statements in a row, each of them chosen by what came of those before it, and a
result at the end. -/
inductive Script (β : Type) where
  | done (result : Except Error β)
  | perform (cmd : Command) (request : Request) (next : Except Error Answer → Script β)

def Script.run (db : Database σ τ α) (tx : τ) : Script β → Run σ α β
  | done result => Run.ofExcept result
  | perform cmd request next => do
    let answer ← (db.perform (some tx) cmd request).attempt
    (next answer).run db tx

/-- What a transaction gives, by what its body gave and by the reply to the call that finished it. -/
def finished : Except Error β → Except Error Unit → Except Error β
  | .ok b, .ok () => .ok b
  | .ok _, .error e => .error e
  | .error e, .ok () => .error e
  | .error e, .error failure => .error (.rollback e failure)

namespace Run

/-- A run that is another one, and may note something at its end. -/
def Notes (r r' : Run σ α β) : Prop := ∀ s, ∃ events, r s = ((r' s).1, (r' s).2.note events)

private theorem Notes.of_eq {r r' : Run σ α β} (h : r = r') : Notes r r' := fun s =>
  ⟨[], by rw [h, Session.note, List.append_nil]⟩

private theorem Notes.after (r : Run σ α β) {next next' : β → Run σ α γ} (h : ∀ b, Notes (next b) (next' b)) :
    Notes (r >>= next) (r >>= next') := by
  intro s
  rcases hr : r s with ⟨_ | _ | b, s'⟩
  · exact ⟨[], by rw [bind_of_none _ hr, bind_of_none _ hr, Session.note, List.append_nil]⟩
  · exact ⟨[], by rw [bind_of_error _ hr, bind_of_error _ hr, Session.note, List.append_nil]⟩
  · rw [bind_of_ok _ hr, bind_of_ok _ hr]
    exact h b s'

private theorem attempt_ofExcept (r : Run σ α β) (f : Except Error β → Except Error γ) (s : Session σ α) :
    (r.attempt >>= fun x => ofExcept (f x)) s = ((r s).1.map f, (r s).2) := by
  rcases hr : r s with ⟨_ | x, s'⟩
  · rw [bind_of_none _ (attempt_of_none hr)]
    rfl
  · rw [bind_of_ok _ (attempt_of_some hr)]
    rfl

end Run

namespace Database

section Shape

variable (db : Database σ τ α)

def finish (tx : τ) : Except Error β → Run σ α Unit
  | .ok _ => db.commit tx
  | .error _ => db.rollback tx

/-- A body between the call that begins a transaction and the one that finishes it. -/
def between (body : τ → Run σ α β) : Run σ α β := do
  let tx ← db.begin
  let result ← (body tx).attempt
  let reply ← (db.finish tx result).attempt
  Run.ofExcept (finished result reply)

private theorem commit_eq (tx : τ) (b : β) :
    (db.commit tx >>= fun _ => Run.ofExcept (.ok b)) =
      ((db.finish tx (.ok b)).attempt >>= fun reply => Run.ofExcept (finished (.ok b) reply)) := by
  funext s
  have hreply : (fun reply : Except Error Unit => reply >>= fun _ => .ok b) = finished (.ok b) :=
    funext fun
      | .ok () => rfl
      | .error e => rfl
  rw [Run.bind_ofExcept, Run.attempt_ofExcept, hreply, finish]

private theorem inQuietTransaction_eq (body : τ → Run σ α β) : db.inQuietTransaction body = db.between body := by
  rw [inQuietTransaction, transactionBlock, Run.bind_assoc]
  refine congrArg (db.begin >>= ·) (funext fun tx => ?_)
  rw [Run.bind_assoc]
  refine congrArg ((body tx).attempt >>= ·) (funext fun result => ?_)
  cases result with
  | ok b =>
    rw [Run.bind_assoc]
    exact db.commit_eq tx b
  | error e =>
    rw [Run.bind_assoc]
    refine congrArg ((db.rollback tx).attempt >>= ·) (funext fun undone => ?_)
    cases undone <;> rfl

private theorem inTransaction_notes (body : τ → Run σ α β) : Run.Notes (db.inTransaction body) (db.between body) := by
  refine .after db.begin fun tx => .after (body tx).attempt fun result => ?_
  cases result with
  | ok b => exact .of_eq (db.commit_eq tx b)
  | error e =>
    refine .after (db.rollback tx).attempt fun undone => ?_
    cases undone with
    | ok _ => exact .of_eq rfl
    | error failure =>
      -- the one place where the two ways part: only a transaction around a function tells of it
      exact fun s => ⟨[.rollbackFailed e failure], rfl⟩

private theorem between_of_ended {body : τ → Run σ α β} {s s₁ s₂ : Session σ α} {tx : τ} {result : Except Error β}
    (hbegin : db.begin s = (some (.ok tx), s₁)) (hbody : body tx s₁ = (some result, s₂)) :
    db.between body s = ((db.finish tx result s₂).1.map (finished result), (db.finish tx result s₂).2) := by
  rw [between, Run.bind_of_ok _ hbegin, Run.bind_of_ok _ (Run.attempt_of_some hbody), Run.attempt_ofExcept]

end Shape

def behind (db : Database σ τ α) (chain : List (Interceptor (Watched σ τ) α)) : Database (Watched σ τ) τ α where
  schema := db.schema
  dialect := db.dialect
  access := db.access
  chain := chain
  driver := db.driver.watched

variable (db : Database σ τ α) {chain : List (Interceptor (Watched σ τ) α)}

private theorem sends_perform (h : ∀ i ∈ chain, i.Lawful) (tx : τ) (cmd : Command) (request : Request) :
    Sends tx ((db.behind chain).perform (some tx) cmd request) := by
  intro s
  obtain ⟨s', hs', hperform⟩ := (db.behind chain).perform_eq (some tx) cmd request s
  rw [hperform, ← hs'.driver]
  split
  · exact ⟨[], (List.append_nil _).symm⟩
  · exact sends_through (sends_ofDriver db.driver tx) h _ s'

private theorem sends_run (h : ∀ i ∈ chain, i.Lawful) (tx : τ) (script : Script β) :
    Sends tx (script.run (db.behind chain) tx) := by
  induction script with
  | done result => exact .ofExcept result
  | perform cmd request next ih => exact (db.sends_perform h tx cmd request).attempt.bind ih

/-- A script in a transaction gives the same as the same script in a block, with the same calls on the driver.
Nothing follows a begin that fails. After any other there are the statements of the script and, when the script
has come to its end, one call more: a commit if it gave a value, a rollback if it gave an error. -/
theorem transaction_finished (h : ∀ i ∈ chain, i.Lawful) (script : Script β) (s : Session (Watched σ τ) α) :
    let body := script.run (db.behind chain)
    let run := (db.behind chain).inTransaction body s
    let block := (db.behind chain).inQuietTransaction body s
    (run.1 = block.1 ∧ ∃ events, run.2 = block.2.note events) ∧
      match (db.driver.begin s.driver.state).result with
      | none => run.1 = none ∧ run.2.driver.calls = s.driver.calls ++ [.begin]
      | some (.error e) => run.1 = some (.error e) ∧ run.2.driver.calls = s.driver.calls ++ [.begin]
      | some (.ok tx) =>
        let after := body tx ((db.behind chain).begin s).2
        (∃ sent, after.2.driver.calls = s.driver.calls ++ .begin :: statementsIn tx sent) ∧
          match after.1 with
          | none => run.1 = none ∧ run.2.driver.calls = after.2.driver.calls
          | some (.ok b) =>
            run.1 = (db.driver.commit tx after.2.driver.state).result.map (finished (.ok b)) ∧
              run.2.driver.calls = after.2.driver.calls ++ [.commit tx]
          | some (.error e) =>
            run.1 = (db.driver.rollback tx after.2.driver.state).result.map (finished (.error e)) ∧
              run.2.driver.calls = after.2.driver.calls ++ [.rollback tx] := by
  intro body run block
  -- Both ways come to the same normal form, which is followed through its two calls below.
  let normal := (db.behind chain).between body s
  have hblock : block = normal := congrFun ((db.behind chain).inQuietTransaction_eq body) s
  obtain ⟨events, hrun⟩ : ∃ events, run = (normal.1, normal.2.note events) :=
    (db.behind chain).inTransaction_notes body s
  have hresult : run.1 = normal.1 := by rw [hrun]
  have hcalls : run.2.driver.calls = normal.2.driver.calls := by
    rw [hrun]
    rfl
  refine ⟨⟨by rw [hresult, hblock], events, by rw [hrun, hblock]⟩, ?_⟩
  rw [hresult, hcalls]
  have hbegun : ((db.behind chain).begin s).2.driver.calls = s.driver.calls ++ [.begin] := s.driver.calls_see .begin
  have hreply : ((db.behind chain).begin s).1 = (db.driver.begin s.driver.state).result := rfl
  rcases hbegin : (db.behind chain).begin s with ⟨_ | _ | tx, s₁⟩
  all_goals
    rw [hbegin] at hbegun hreply
    rw [← hreply]
  · have hnormal : normal = (none, s₁) := Run.bind_of_none _ hbegin
    rw [hnormal]
    exact ⟨rfl, hbegun⟩
  · have hnormal : normal = (some (.error _), s₁) := Run.bind_of_error _ hbegin
    rw [hnormal]
    exact ⟨rfl, hbegun⟩
  obtain ⟨sent, hsent⟩ := db.sends_run h tx script s₁
  rw [hbegun, List.append_assoc] at hsent
  dsimp only
  refine ⟨⟨sent, hsent⟩, ?_⟩
  rcases hbody : body tx s₁ with ⟨_ | _ | _, s₂⟩
  · have hnormal : normal = (none, s₂) :=
      (Run.bind_of_ok _ hbegin).trans (Run.bind_of_none _ (Run.attempt_of_none hbody))
    rw [hnormal]
    exact ⟨rfl, rfl⟩
  · have hnormal := between_of_ended (db.behind chain) hbegin hbody
    exact ⟨congrArg Prod.fst hnormal, (congrArg (·.2.driver.calls) hnormal).trans (s₂.driver.calls_see (.rollback tx))⟩
  · have hnormal := between_of_ended (db.behind chain) hbegin hbody
    exact ⟨congrArg Prod.fst hnormal, (congrArg (·.2.driver.calls) hnormal).trans (s₂.driver.calls_see (.commit tx))⟩

/-- A body that fails after a statement, and a connection that is lost when it is to be rolled back. -/
theorem transaction_finished_lost :
    let driver : Driver Unit Nat Unit :=
      { query := fun _ _ => pure .empty
        execute := fun _ _ => pure ⟨.ok ⟨1, by decide, by decide⟩, .ok ⟨1, by decide, by decide⟩⟩
        begin := pure 7
        commit := fun _ => pure ()
        rollback := fun _ => Call.fail (.other "lost")
        abandon := fun _ s => s }
    let db : Database Unit Nat Unit := ⟨fun _ => .other, .standard, .byOffset, [], driver⟩
    let watched := db.behind (watchedFrom 0 [.safeDelete, .span none])
    let update : RawSql := ⟨"UPDATE notes SET size = 1", []⟩
    let script : Script Nat := .perform (.raw update) .exec fun _ => .done (.error (.other "boom"))
    let run := watched.inTransaction (script.run watched) (.start ⟨(), []⟩)
    run.1 = some (.error (.rollback (.other "boom") (.other "lost"))) ∧
      run.2.driver.calls = [.begin, .statement (some 7) .execute ⟨update.sql, []⟩, .rollback 7] := by
  intro driver db watched update script run
  obtain ⟨-, -, hresult, hcalls⟩ := db.transaction_finished (lawful_watchedFrom [.safeDelete, .span none] 0) script
    (.start ⟨(), []⟩)
  exact ⟨hresult, hcalls⟩

end Database

end EntitySql
