import EntitySql.Proofs.Session.Watched
import EntitySql.Proofs.Text.Boundary

namespace EntitySql

variable {σ τ α β : Type}

def Guard.isSafeDelete : Guard α → Bool
  | .safeDelete => true
  | .statementLog _ _ | .slowStatement _ _ | .stats | .span _ => false

def Guard.isStats : Guard α → Bool
  | .stats => true
  | .safeDelete | .statementLog _ _ | .slowStatement _ _ | .span _ => false

/-- Whether an interceptor turns a statement away. -/
def Guard.refuses (g : Guard α) (ctx : Context) : Bool := g.isSafeDelete && isUnsafe ctx

/-- The place of the interceptor that turns a statement away. -/
def refusal? (gs : List (Guard α)) (ctx : Context) : Option Nat := gs.findIdx? (·.refuses ctx)

def Driver.send (d : Driver σ τ α) (tx : Option τ) : Mode → Statement → Call σ α Outcome
  | .query, statement => do
    let rows ← d.query tx statement
    pure (.rows rows)
  | .execute, statement => do
    let result ← d.execute tx statement
    pure (.exec result)

theorem ofDriver_eq_call (d : Driver σ τ α) (tx : Option τ) (ctx : Context) :
    Handler.ofDriver d tx ctx = Run.call (d.send tx ctx.mode ctx.statement) := by
  unfold Handler.ofDriver
  cases ctx.mode with
  | query => exact Run.call_bind_pure _ _
  | execute => exact Run.call_bind_pure _ _

private theorem Driver.send_watched (d : Driver σ τ α) (tx : Option τ) (mode : Mode) (statement : Statement) :
    d.watched.send tx mode statement = (d.send tx mode statement).watched (.statement tx mode statement) := by
  cases mode with
  | query => exact Call.watched_bind_pure _ _ _
  | execute => exact Call.watched_bind_pure _ _ _

/-- Interceptors in a row, from a place on, to which a statement comes. -/
def seenFrom (place count : Nat) (statement : Statement) : List (Sighting τ) :=
  (List.range' place count).map (.interceptor · statement)

/-- What comes after a run, given its outcome, returns that outcome and leaves something of the session alone. -/
theorem Run.attempt_bind {γ : Type} (kept : Session σ α → γ) {r : Run σ α β} {after : Except Error β → Run σ α β}
    (h : ∀ x s, (after x s).1 = some x ∧ kept (after x s).2 = kept s) (s : Session σ α) :
    ((r.attempt >>= after) s).1 = (r s).1 ∧ kept ((r.attempt >>= after) s).2 = kept (r s).2 := by
  rcases hr : r s with ⟨x, s'⟩
  cases x with
  | none => simp only [bind_of_none _ (attempt_of_none hr), and_self]
  | some x =>
    rw [bind_of_ok _ (attempt_of_some hr)]
    exact h x s'

namespace Guard

theorem intercept_of_refuses {g : Guard α} {ctx : Context} (h : g.refuses ctx = true) (next : Handler σ α)
    (s : Session σ α) :
    g.intercept next ctx s = (some (.error .unsafeDelete), s.note [.rejectedDelete ctx.statement.sql]) := by
  cases g with
  | safeDelete =>
    have hunsafe : isUnsafe ctx = true := h
    simp only [intercept, hunsafe, if_true]
    rfl
  | statementLog level limit => cases h
  | slowStatement threshold callback => cases h
  | stats => cases h
  | span limit => cases h

/-- Nobody breaks off for want of a text to show. -/
theorem exists_shown (limit : Option Nat) (ctx : Context) : ∃ sql, (shown limit ctx : Run σ α String) = pure sql := by
  obtain ⟨sql, hsql⟩ := Text.exists_truncate? limit ctx.statement.sql
  refine ⟨sql, ?_⟩
  rw [shown, hsql]
  rfl

/-- An interceptor that does not turn a statement away calls on once, and returns what came of it. It leaves alone
what does not depend on the notes, nor on the statistics if it counts. -/
theorem intercept_keeps {γ : Type} (kept : Session σ α → γ) (hnote : ∀ s events, kept (s.note events) = kept s)
    {g : Guard α} (hstats : g.isStats = true → ∀ s stats, kept { s with stats } = kept s) {ctx : Context}
    (h : g.refuses ctx = false) (s : Session σ α) :
    ∃ (s' : Session σ α) (spans : List String), kept s' = kept s ∧ ∀ next : Handler σ α,
      (g.intercept next ctx s).1 = (next { ctx with spans } s').1 ∧
        kept (g.intercept next ctx s).2 = kept (next { ctx with spans } s').2 := by
  cases g with
  | safeDelete =>
    have hsafe : isUnsafe ctx = false := h
    refine ⟨s, ctx.spans, rfl, fun next => ?_⟩
    simp [intercept, hsafe]
  | statementLog level limit =>
    obtain ⟨sql, hsql⟩ := exists_shown (σ := σ) (α := α) limit ctx
    refine ⟨s.note [.statement level ctx.kind ctx.statement.args.length sql], ctx.spans, hnote .., fun next => ?_⟩
    rw [intercept, hsql]
    exact ⟨rfl, rfl⟩
  | slowStatement threshold callback =>
    obtain ⟨sql, hsql⟩ := exists_shown (σ := σ) (α := α) defaultLimit ctx
    refine ⟨s, ctx.spans, rfl, fun next => Run.attempt_bind kept (fun x s' => ?_) s⟩
    by_cases hslow : threshold ≤ s'.clock - s.clock
    · simp [hsql, Bind.bind, Run.bind, Pure.pure, Run.pure, Run.clock, Run.note, Run.ofExcept, hslow, hnote]
    · simp [Bind.bind, Run.bind, Run.clock, Run.ofExcept, hslow]
  | stats => exact ⟨s, ctx.spans, rfl, fun next => Run.attempt_bind kept (fun x s' => ⟨rfl, hstats rfl ..⟩) s⟩
  | span limit =>
    obtain ⟨sql, hsql⟩ := exists_shown (σ := σ) (α := α) limit ctx
    refine ⟨s.note [.spanOpened ctx.kind ctx.table sql], spanName :: ctx.spans, hnote .., fun next => ?_⟩
    rw [intercept, hsql]
    refine Run.attempt_bind kept (fun x s' => ?_) _
    cases x with
    | ok outcome => exact ⟨rfl, rfl⟩
    | error e => exact ⟨rfl, hnote ..⟩

theorem intercept_of_not_refuses {g : Guard α} {ctx : Context} (h : g.refuses ctx = false) (s : Session σ α) :
    ∃ (s' : Session σ α) (spans : List String), s'.driver = s.driver ∧ ∀ next : Handler σ α,
      (g.intercept next ctx s).1 = (next { ctx with spans } s').1 ∧
        (g.intercept next ctx s).2.driver = (next { ctx with spans } s').2.driver :=
  intercept_keeps (·.driver) (fun _ _ => rfl) (fun _ _ _ => rfl) h s

end Guard

/-- The driver at the end of a watched chain. -/
theorem ofDriver_watched (d : Driver σ τ α) (tx : Option τ) (ctx : Context) (s : Session (Watched σ τ) α) :
    let run := Handler.ofDriver d.watched tx ctx s
    let reply := d.send tx ctx.mode ctx.statement s.driver.state
    run.1 = reply.result ∧ run.2.driver =
      ⟨reply.state, s.driver.sightings ++ [.driver (.statement tx ctx.mode ctx.statement)]⟩ := by
  rw [ofDriver_eq_call, Driver.send_watched]
  exact ⟨rfl, rfl⟩

theorem refusal?_spans (gs : List (Guard α)) (ctx : Context) (spans : List String) :
    refusal? gs { ctx with spans } = refusal? gs ctx := by
  refine congrArg (gs.findIdx? ·) (funext fun g => ?_)
  cases g <;> rfl

theorem refusal?_of_refuses {g : Guard α} {ctx : Context} (h : g.refuses ctx = true) (gs : List (Guard α)) :
    refusal? (g :: gs) ctx = some 0 := by
  simp [refusal?, List.findIdx?_cons, h]

theorem refusal?_of_not_refuses {g : Guard α} {ctx : Context} (h : g.refuses ctx = false) (gs : List (Guard α)) :
    refusal? (g :: gs) ctx = (refusal? gs ctx).map (· + 1) := by
  simp [refusal?, List.findIdx?_cons, h]

section Chain

variable (d : Driver σ τ α) (tx : Option τ) {gs : List (Guard α)} {ctx : Context}

/-- A chain that turns a statement away: the interceptors behind the one that does never see it. -/
theorem through_refused {i : Nat} (h : refusal? gs ctx = some i) (place : Nat) (s : Session (Watched σ τ) α) :
    let run := (Handler.ofDriver d.watched tx).through (watchedFrom place gs) ctx s
    run.1 = some (.error .unsafeDelete) ∧
      run.2.driver = ⟨s.driver.state, s.driver.sightings ++ seenFrom place (i + 1) ctx.statement⟩ := by
  induction gs generalizing i place ctx s with
  | nil => cases h
  | cons g gs ih =>
    let seen : Session (Watched σ τ) α := { s with driver := s.driver.see (.interceptor place ctx.statement) }
    let rest := (Handler.ofDriver d.watched tx).through (watchedFrom (place + 1) gs)
    cases hg : g.refuses ctx with
    | true =>
      obtain rfl : 0 = i := Option.some.inj ((refusal?_of_refuses hg gs).symm.trans h)
      have hrun := Guard.intercept_of_refuses hg rest seen
      exact ⟨congrArg Prod.fst hrun, congrArg (fun run => run.2.driver) hrun⟩
    | false =>
      rw [refusal?_of_not_refuses hg] at h
      obtain ⟨j, hj, rfl⟩ := Option.map_eq_some_iff.mp h
      obtain ⟨s', spans, hdriver, hpass⟩ := Guard.intercept_of_not_refuses hg seen
      obtain ⟨hresult, hstate⟩ := hpass rest
      obtain ⟨hlast, hend⟩ := ih ((refusal?_spans gs ctx spans).trans hj) (place + 1) s'
      refine ⟨hresult.trans hlast, (hstate.trans hend).trans ?_⟩
      simp [hdriver, seen, Watched.see, seenFrom, List.range'_succ]

/-- A chain that turns nothing away: the statement comes to every interceptor, and then to the driver. -/
theorem through_sent (h : refusal? gs ctx = none) (place : Nat) (s : Session (Watched σ τ) α) :
    let run := (Handler.ofDriver d.watched tx).through (watchedFrom place gs) ctx s
    let reply := d.send tx ctx.mode ctx.statement s.driver.state
    run.1 = reply.result ∧ run.2.driver =
      ⟨reply.state, s.driver.sightings ++ seenFrom place gs.length ctx.statement ++
        [.driver (.statement tx ctx.mode ctx.statement)]⟩ := by
  induction gs generalizing place ctx s with
  | nil => simpa [seenFrom, watchedFrom, Handler.through] using ofDriver_watched d tx ctx s
  | cons g gs ih =>
    let seen : Session (Watched σ τ) α := { s with driver := s.driver.see (.interceptor place ctx.statement) }
    let rest := (Handler.ofDriver d.watched tx).through (watchedFrom (place + 1) gs)
    cases hg : g.refuses ctx with
    | true =>
      rw [refusal?_of_refuses hg] at h
      cases h
    | false =>
      rw [refusal?_of_not_refuses hg, Option.map_eq_none_iff] at h
      obtain ⟨s', spans, hdriver, hpass⟩ := Guard.intercept_of_not_refuses hg seen
      obtain ⟨hresult, hstate⟩ := hpass rest
      obtain ⟨hlast, hend⟩ := ih ((refusal?_spans gs ctx spans).trans h) (place + 1) s'
      have hinner : s'.driver.state = s.driver.state := by
        rw [hdriver]
        rfl
      refine ⟨hresult.trans (hlast.trans ?_), (hstate.trans hend).trans ?_⟩
      · rw [hinner]
      · simp [hdriver, seen, Watched.see, seenFrom, List.range'_succ]

end Chain

/-- How a caller has a command run: for its report, or for its rows as entities over a blank one. -/
inductive Request where
  | exec
  | findMany (blank : Entity)
  | findOne (blank : Entity)

/-- What the caller gets. -/
inductive Answer where
  | report (result : ExecResult)
  | entities (es : List Entity)
  | entity (e : Entity)

/-- A statement that is ready to be sent, and how its outcome is read. -/
structure Prepared where
  context : Context
  read : Outcome → Except Error Answer

namespace Request

def mode : Request → Mode
  | exec => .execute
  | findMany _ | findOne _ => .query

def table? (lookup : TypeId → Except Error Model) : Option TypeId → Except Error (Option String)
  | none => .ok none
  | some t => do
    let m ← lookup t
    pure (some m.table)

/-- What a request comes to before it is sent: its statement first, then the model that it needs. -/
def prepare (c : Compiler) (cmd : Command) : Request → Except Error Prepared
  | exec => do
    let statement ← c.build cmd
    let table ← table? c.lookup cmd.entity?
    pure ⟨⟨cmd.kind, .execute, statement, table, []⟩, fun outcome => do
      let result ← outcome.intoExec
      pure (.report result)⟩
  | findMany blank => do
    let statement ← c.build cmd
    let m ← c.lookup blank.type
    pure ⟨⟨cmd.kind, .query, statement, some m.table, []⟩, fun outcome => do
      let rows ← outcome.intoRows
      let es ← c.access.decodeRows m blank rows
      pure (.entities es)⟩
  | findOne blank => do
    let statement ← c.build cmd
    let m ← c.lookup blank.type
    pure ⟨⟨cmd.kind, .query, statement, some m.table, []⟩, fun outcome => do
      let rows ← outcome.intoRows
      match rows.toList with
      | [] => throw .noEligibleRow
      | row :: _ => do
        let e ← c.access.decodeRow m blank row
        pure (.entity e)⟩

private theorem prepare_eq_ok {c : Compiler} {cmd : Command} {request : Request} {p : Prepared}
    (h : request.prepare c cmd = .ok p) :
    c.build cmd = .ok p.context.statement ∧ p.context.kind = cmd.kind ∧ p.context.mode = request.mode := by
  cases request with
  | exec =>
    obtain ⟨statement, hbuild, h⟩ := exists_ok_of_bind h
    obtain ⟨table, -, h⟩ := exists_ok_of_bind h
    cases h
    exact ⟨hbuild, rfl, rfl⟩
  | findMany blank =>
    obtain ⟨statement, hbuild, h⟩ := exists_ok_of_bind h
    obtain ⟨m, -, h⟩ := exists_ok_of_bind h
    cases h
    exact ⟨hbuild, rfl, rfl⟩
  | findOne blank =>
    obtain ⟨statement, hbuild, h⟩ := exists_ok_of_bind h
    obtain ⟨m, -, h⟩ := exists_ok_of_bind h
    cases h
    exact ⟨hbuild, rfl, rfl⟩

end Request

namespace Database

variable (db : Database σ τ α)

def perform (tx : Option τ) (cmd : Command) : Request → Run σ α Answer
  | .exec => do
    let result ← db.exec tx cmd
    pure (.report result)
  | .findMany blank => do
    let es ← db.findMany tx blank cmd
    pure (.entities es)
  | .findOne blank => do
    let e ← db.findOne tx blank cmd
    pure (.entity e)

def compiler (s : Session σ α) : Compiler := ⟨db.dialect, db.access, s.registry.view db.schema⟩

/-- A session in which no more happened than that models were asked for. -/
structure Consulted (s s' : Session σ α) : Prop where
  driver : s'.driver = s.driver
  compiler : db.compiler s' = db.compiler s

private theorem consulted_consult (s : Session σ α) (types : List TypeId) :
    db.Consulted s (Run.consult db.schema types s).2 where
  driver := rfl
  compiler := congrArg (Compiler.mk db.dialect db.access)
    (funext fun t => s.registry.view_consultAll db.schema types t)

theorem build_eq (cmd : Command) (s : Session σ α) :
    ∃ s', db.build cmd s = (some ((db.compiler s).build cmd), s') ∧ db.Consulted s s' :=
  ⟨_, rfl, db.consulted_consult s _⟩

theorem model_eq (t : TypeId) (s : Session σ α) :
    ∃ s', db.model t s = (some ((db.compiler s).lookup t), s') ∧ db.Consulted s s' :=
  ⟨_, rfl, db.consulted_consult s _⟩

private theorem tableOf_eq (cmd : Command) (s : Session σ α) :
    ∃ s', db.tableOf cmd s = (some (Request.table? (db.compiler s).lookup cmd.entity?), s') ∧ db.Consulted s s' := by
  unfold tableOf
  cases cmd.entity? with
  | none => exact ⟨s, rfl, rfl, rfl⟩
  | some t =>
    obtain ⟨s', hmodel, hs'⟩ := db.model_eq t s
    refine ⟨s', ?_, hs'⟩
    cases hm : (db.compiler s).lookup t with
    | error e =>
      rw [hm] at hmodel
      simp only [Run.bind_of_error _ hmodel, Request.table?, hm]
      rfl
    | ok m =>
      rw [hm] at hmodel
      simp only [Run.bind_of_ok _ hmodel, Request.table?, hm]
      rfl

theorem Consulted.trans {s s' s'' : Session σ α} (h : db.Consulted s s') (h' : db.Consulted s' s'') :
    db.Consulted s s'' :=
  ⟨h'.driver.trans h.driver, h'.compiler.trans h.compiler⟩

variable {db} in
/-- The statement is built, the model is looked up, and then the statement is sent and its outcome read. -/
theorem staged {γ : Type} {r : Run σ α Statement} {r' : Run σ α γ} {x : Except Error Statement}
    {y : Except Error γ} {s s₁ s₂ : Session σ α} (hs₁ : db.Consulted s s₁) (hs₂ : db.Consulted s₁ s₂)
    (h : r s = (some x, s₁)) (h' : r' s₁ = (some y, s₂)) (send : Context → Run σ α Outcome)
    (context : Statement → γ → Context) {last : γ → Outcome → Run σ α Answer}
    {read : γ → Outcome → Except Error Answer} (hlast : ∀ c outcome, last c outcome = Run.ofExcept (read c outcome)) :
    ∃ s', db.Consulted s s' ∧ (r >>= fun b => r' >>= fun c => send (context b c) >>= last c) s =
      match (do let b ← x; let c ← y; pure ⟨context b c, read c⟩ : Except Error Prepared) with
      | .error e => (some (.error e), s')
      | .ok p => ((send p.context s').1.map (· >>= p.read), (send p.context s').2) := by
  cases x with
  | error e => exact ⟨s₁, hs₁, Run.bind_of_error _ h⟩
  | ok b =>
    refine ⟨s₂, hs₁.trans db hs₂, (Run.bind_of_ok _ h).trans ?_⟩
    cases y with
    | error e => exact Run.bind_of_error _ h'
    | ok c =>
      have hread : last c = fun outcome => Run.ofExcept (read c outcome) := funext (hlast c)
      rw [Run.bind_of_ok _ h', hread, Run.bind_ofExcept]
      rfl

/-- A request is its statement, sent on its way if there is one, and the outcome read at the end. -/
theorem perform_eq (tx : Option τ) (cmd : Command) (request : Request) (s : Session σ α) :
    ∃ s', db.Consulted s s' ∧ db.perform tx cmd request s =
      match request.prepare (db.compiler s) cmd with
      | .error e => (some (.error e), s')
      | .ok p => ((db.dispatch tx p.context s').1.map (· >>= p.read), (db.dispatch tx p.context s').2) := by
  obtain ⟨s₁, hbuild, hs₁⟩ := db.build_eq cmd s
  cases request with
  | exec =>
    obtain ⟨s₂, htable, hs₂⟩ := db.tableOf_eq cmd s₁
    rw [hs₁.compiler] at htable
    simp only [perform, exec, Run.bind_assoc]
    exact staged hs₁ hs₂ hbuild htable (db.dispatch tx) _ fun table outcome => Run.ofExcept_bind _ _
  | findMany blank =>
    obtain ⟨s₂, hmodel, hs₂⟩ := db.model_eq blank.type s₁
    rw [hs₁.compiler] at hmodel
    simp only [perform, findMany, fetch, Run.bind_assoc]
    refine staged hs₁ hs₂ hbuild hmodel (db.dispatch tx) _ fun m outcome => ?_
    cases outcome with
    | exec result => rfl
    | rows rows => exact Run.ofExcept_bind _ _
  | findOne blank =>
    obtain ⟨s₂, hmodel, hs₂⟩ := db.model_eq blank.type s₁
    rw [hs₁.compiler] at hmodel
    simp only [perform, findOne, fetch, Run.bind_assoc]
    refine staged hs₁ hs₂ hbuild hmodel (db.dispatch tx) _ fun m outcome => ?_
    cases outcome with
    | exec result => rfl
    | rows rows =>
      change (match rows.toList with | [] => Run.fail .noEligibleRow | row :: _ => Run.ofExcept _) >>= _ =
        Run.ofExcept (match rows.toList with | [] => _ | row :: _ => _)
      cases rows.toList with
      | nil => rfl
      | cons row rest => exact Run.ofExcept_bind _ _

section Watched

variable {db} (tx : Option τ) {gs : List (Guard α)} {cmd : Command} {request : Request}
  {s : Session (Watched σ τ) α}

theorem perform_of_unprepared {e : Error} (h : request.prepare (db.compiler s.unwatched) cmd = .error e) :
    let run := (db.watched gs).perform tx cmd request s
    run.1 = some (.error e) ∧ run.2.driver = s.driver := by
  obtain ⟨s', hs', hrun⟩ := (db.watched gs).perform_eq tx cmd request s
  have hcompiler : (db.watched gs).compiler s = db.compiler s.unwatched := rfl
  rw [hcompiler, h] at hrun
  dsimp only
  rw [hrun]
  exact ⟨rfl, hs'.driver⟩

theorem perform_of_refused {p : Prepared} (h : request.prepare (db.compiler s.unwatched) cmd = .ok p) {i : Nat}
    (hi : refusal? gs p.context = some i) :
    let run := (db.watched gs).perform tx cmd request s
    run.1 = some (.error .unsafeDelete) ∧
      run.2.driver = ⟨s.driver.state, s.driver.sightings ++ seenFrom 0 (i + 1) p.context.statement⟩ := by
  obtain ⟨s', hs', hrun⟩ := (db.watched gs).perform_eq tx cmd request s
  have hcompiler : (db.watched gs).compiler s = db.compiler s.unwatched := rfl
  obtain ⟨hresult, hdriver⟩ := through_refused db.driver tx hi 0 s'
  rw [hcompiler, h] at hrun
  dsimp only
  rw [hrun, ← hs'.driver]
  exact ⟨congrArg (Option.map (· >>= p.read)) hresult, hdriver⟩

theorem perform_of_sent {p : Prepared} (h : request.prepare (db.compiler s.unwatched) cmd = .ok p)
    (hi : refusal? gs p.context = none) :
    let run := (db.watched gs).perform tx cmd request s
    let reply := db.driver.send tx p.context.mode p.context.statement s.driver.state
    run.1 = reply.result.map (· >>= p.read) ∧ run.2.driver =
      ⟨reply.state, s.driver.sightings ++ seenFrom 0 gs.length p.context.statement ++
        [.driver (.statement tx p.context.mode p.context.statement)]⟩ := by
  obtain ⟨s', hs', hrun⟩ := (db.watched gs).perform_eq tx cmd request s
  have hcompiler : (db.watched gs).compiler s = db.compiler s.unwatched := rfl
  obtain ⟨hresult, hdriver⟩ := through_sent db.driver tx hi 0 s'
  rw [hcompiler, h] at hrun
  dsimp only
  rw [hrun, ← hs'.driver]
  exact ⟨congrArg (Option.map (· >>= p.read)) hresult, hdriver⟩

end Watched

theorem watches_perform (gs : List (Guard α)) (tx : Option τ) (cmd : Command) (request : Request) :
    Run.Watches ((db.watched gs).perform tx cmd request) ((db.guarded gs).perform tx cmd request) := by
  cases request with
  | exec => exact (db.watches_exec gs tx cmd).bind fun result => .pure _
  | findMany blank => exact (db.watches_findMany gs tx blank cmd).bind fun es => .pure _
  | findOne blank => exact (db.watches_findOne gs tx blank cmd).bind fun e => .pure _

/-- A request through interceptors of the kinds given here. Nobody sees a request for which there is no
statement or no model. Any other comes to every interceptor and is one call on the driver, with the statement
as it was built, and the caller reads what that call gave; or it comes to the interceptors up to the first that
turns it away, and not to the driver. -/
theorem perform_transparent (gs : List (Guard α)) (tx : Option τ) (cmd : Command) (request : Request)
    (s : Session (Watched σ τ) α) :
    let run := (db.watched gs).perform tx cmd request s
    (db.guarded gs).perform tx cmd request s.unwatched = (run.1, run.2.unwatched) ∧
      match request.prepare (db.compiler s.unwatched) cmd with
      | .error e => run.1 = some (.error e) ∧ run.2.driver = s.driver
      | .ok p =>
        (db.compiler s.unwatched).build cmd = .ok p.context.statement ∧ p.context.kind = cmd.kind ∧
          p.context.mode = request.mode ∧
          match refusal? gs p.context with
          | some i =>
            run.1 = some (.error .unsafeDelete) ∧
              run.2.driver = ⟨s.driver.state, s.driver.sightings ++ seenFrom 0 (i + 1) p.context.statement⟩
          | none =>
            let reply := db.driver.send tx request.mode p.context.statement s.driver.state
            run.1 = reply.result.map (· >>= p.read) ∧ run.2.driver =
              ⟨reply.state, s.driver.sightings ++ seenFrom 0 gs.length p.context.statement ++
                [.driver (.statement tx request.mode p.context.statement)]⟩ := by
  refine ⟨db.watches_perform gs tx cmd request s, ?_⟩
  split
  · rename_i e hprepare
    exact perform_of_unprepared tx hprepare
  · rename_i p hprepare
    obtain ⟨hbuild, hkind, hmode⟩ := Request.prepare_eq_ok hprepare
    refine ⟨hbuild, hkind, hmode, ?_⟩
    rw [← hmode]
    split
    · rename_i i hi
      exact perform_of_refused tx hprepare hi
    · rename_i hi
      exact perform_of_sent tx hprepare hi

end Database

end EntitySql
