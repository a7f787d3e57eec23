import EntitySql.Session.Database

namespace EntitySql

/-- A call on a driver. -/
inductive DriverCall (τ : Type) where
  | statement (tx : Option τ) (mode : Mode) (statement : Statement)
  | begin
  | commit (tx : τ)
  | rollback (tx : τ)
  | abandon (tx : τ)
  deriving DecidableEq, Repr

/-- What somebody sees who watches the interceptors of a chain and the driver behind it. -/
inductive Sighting (τ : Type) where
  /-- A statement comes to the interceptor in a place of the chain. -/
  | interceptor (place : Nat) (statement : Statement)
  | driver (call : DriverCall τ)
  deriving DecidableEq, Repr

/-- The state of a driver, with what was seen, the oldest first. -/
structure Watched (σ τ : Type) where
  state : σ
  sightings : List (Sighting τ)
  deriving DecidableEq, Repr

variable {σ τ α β γ : Type}

def Watched.see (w : Watched σ τ) (sighting : Sighting τ) : Watched σ τ :=
  { w with sightings := w.sightings ++ [sighting] }

def Call.watched (call : DriverCall τ) (c : Call σ α β) : Call (Watched σ τ) α β := fun w =>
  let r := c w.state
  ⟨{ w.see (.driver call) with state := r.state }, r.events, r.elapsed, r.result⟩

theorem Call.watched_bind_pure (call : DriverCall τ) (c : Call σ α β) (f : β → γ) :
    (c.watched call >>= fun b => Pure.pure (f b)) = (c >>= fun b => Pure.pure (f b)).watched call := by
  funext w
  rcases hreply : c w.state with ⟨state, events, elapsed, _ | _ | b⟩
  · simp [Bind.bind, Call.bind, Call.watched, hreply]
  · simp [Bind.bind, Call.bind, Call.watched, hreply]
  · simp [Bind.bind, Call.bind, Call.watched, Pure.pure, Call.pure, hreply]

/-- The driver, with every call on it put down. -/
def Driver.watched (d : Driver σ τ α) : Driver (Watched σ τ) τ α where
  query tx statement := (d.query tx statement).watched (.statement tx .query statement)
  execute tx statement := (d.execute tx statement).watched (.statement tx .execute statement)
  begin := d.begin.watched .begin
  commit tx := (d.commit tx).watched (.commit tx)
  rollback tx := (d.rollback tx).watched (.rollback tx)
  abandon tx w := { w.see (.driver (.abandon tx)) with state := d.abandon tx w.state }

/-- The interceptor in a place, with every statement that comes to it put down. -/
def Interceptor.watched (place : Nat) (i : Interceptor (Watched σ τ) α) : Interceptor (Watched σ τ) α :=
  fun next ctx s => i next ctx { s with driver := s.driver.see (.interceptor place ctx.statement) }

def watchedFrom (place : Nat) : List (Guard α) → List (Interceptor (Watched σ τ) α)
  | [] => []
  | g :: gs => Interceptor.watched place g.intercept :: watchedFrom (place + 1) gs

namespace Database

/-- The database with a chain of the interceptors given here. -/
def guarded (db : Database σ τ α) (gs : List (Guard α)) : Database σ τ α :=
  { db with chain := gs.map Guard.intercept }

def watched (db : Database σ τ α) (gs : List (Guard α)) : Database (Watched σ τ) τ α where
  schema := db.schema
  dialect := db.dialect
  access := db.access
  chain := watchedFrom 0 gs
  driver := db.driver.watched

end Database

def Session.unwatched (s : Session (Watched σ τ) α) : Session σ α :=
  ⟨s.registry, s.stats, s.log, s.clock, s.driver.state⟩

def Run.Watches (r : Run (Watched σ τ) α β) (r' : Run σ α β) : Prop :=
  ∀ s, r' s.unwatched = ((r s).1, (r s).2.unwatched)

namespace Run.Watches

variable {r : Run (Watched σ τ) α β} {r' : Run σ α β}

theorem pure (b : β) : Watches (Pure.pure b : Run (Watched σ τ) α β) (Pure.pure b) := fun _ => rfl

private theorem fail (e : Error) : Watches (Run.fail e : Run (Watched σ τ) α β) (Run.fail e) := fun _ => rfl

theorem ofExcept (x : Except Error β) : Watches (Run.ofExcept x : Run (Watched σ τ) α β) (Run.ofExcept x) :=
  fun _ => rfl

theorem ofOption (x : Option β) : Watches (Run.ofOption x : Run (Watched σ τ) α β) (Run.ofOption x) := fun _ => rfl

theorem note (events : List (Event α)) : Watches (Run.note events : Run (Watched σ τ) α Unit) (Run.note events) :=
  fun _ => rfl

theorem bind (h : Watches r r') {next : β → Run (Watched σ τ) α γ} {next' : β → Run σ α γ}
    (hnext : ∀ b, Watches (next b) (next' b)) : Watches (r >>= next) (r' >>= next') := by
  intro s
  have hr := h s
  rcases hrun : r s with ⟨x, s₁⟩
  rw [hrun] at hr
  cases x with
  | none => rw [bind_of_none _ hrun, bind_of_none _ hr]
  | some x =>
    cases x with
    | error e => rw [bind_of_error _ hrun, bind_of_error _ hr]
    | ok b => rw [bind_of_ok _ hrun, bind_of_ok _ hr, hnext b s₁]

private theorem attempt (h : Watches r r') : Watches r.attempt r'.attempt := by
  intro s
  have hr := h s
  rcases hrun : r s with ⟨x, s₁⟩
  rw [hrun] at hr
  cases x with
  | none => rw [attempt_of_none hrun, attempt_of_none hr]
  | some x => rw [attempt_of_some hrun, attempt_of_some hr]

theorem call (c : DriverCall τ) (f : Call σ α β) : Watches (Run.call (f.watched c)) (Run.call f) := fun _ => rfl

end Run.Watches

open Run (Watches)

private theorem watches_ofDriver (d : Driver σ τ α) (tx : Option τ) (ctx : Context) :
    Watches (Handler.ofDriver d.watched tx ctx) (Handler.ofDriver d tx ctx) := by
  unfold Handler.ofDriver
  cases ctx.mode with
  | query => exact (Watches.call _ _).bind fun rows => .pure _
  | execute => exact (Watches.call _ _).bind fun result => .pure _

private theorem watches_intercept (g : Guard α) {next : Handler (Watched σ τ) α} {next' : Handler σ α}
    (h : ∀ ctx, Watches (next ctx) (next' ctx)) (ctx : Context) :
    Watches (g.intercept next ctx) (g.intercept next' ctx) := by
  cases g with
  | safeDelete =>
    simp only [Guard.intercept]
    split
    · exact (Watches.note _).bind fun _ => .fail _
    · exact h ctx
  | statementLog level limit =>
    exact (Watches.ofOption _).bind fun sql => (Watches.note _).bind fun _ => h ctx
  | slowStatement threshold callback =>
    refine Watches.bind (fun _ => rfl) fun start => (h ctx).attempt.bind fun outcome =>
      Watches.bind (fun _ => rfl) fun stop => ?_
    split
    · exact (Watches.ofOption _).bind fun sql => (Watches.note _).bind fun _ =>
        (Watches.note _).bind fun _ => .ofExcept _
    · exact .ofExcept _
  | stats =>
    exact Watches.bind (fun _ => rfl) fun start => (h ctx).attempt.bind fun outcome =>
      Watches.bind (fun _ => rfl) fun stop => Watches.bind (fun _ => rfl) fun _ => .ofExcept _
  | span limit =>
    refine (Watches.ofOption _).bind fun sql => (Watches.note _).bind fun _ =>
      (h _).attempt.bind fun outcome => ?_
    cases outcome with
    | ok outcome => exact .pure _
    | error e => exact (Watches.note _).bind fun _ => .fail _

private theorem watches_through {last : Handler (Watched σ τ) α} {last' : Handler σ α}
    (h : ∀ ctx, Watches (last ctx) (last' ctx)) (gs : List (Guard α)) (place : Nat) (ctx : Context) :
    Watches (last.through (watchedFrom place gs) ctx) (last'.through (gs.map Guard.intercept) ctx) := by
  induction gs generalizing place ctx with
  | nil => exact h ctx
  | cons g gs ih =>
    intro s
    exact watches_intercept g (ih (place + 1)) ctx
      { s with driver := s.driver.see (.interceptor place ctx.statement) }

namespace Database

variable (db : Database σ τ α) (gs : List (Guard α))

private theorem watches_model (t : TypeId) : Watches ((db.watched gs).model t) ((db.guarded gs).model t) :=
  fun s => (Watches.bind (fun _ => rfl) fun _ => .ofExcept _) s

private theorem watches_build (cmd : Command) : Watches ((db.watched gs).build cmd) ((db.guarded gs).build cmd) :=
  fun s => (Watches.bind (fun _ => rfl) fun _ => .ofExcept _) s

private theorem watches_tableOf (cmd : Command) : Watches ((db.watched gs).tableOf cmd)
    ((db.guarded gs).tableOf cmd) := by
  unfold tableOf
  cases cmd.entity? with
  | none => exact .pure _
  | some t => exact (db.watches_model gs t).bind fun m => .pure _

private theorem watches_dispatch (tx : Option τ) (ctx : Context) :
    Watches ((db.watched gs).dispatch tx ctx) ((db.guarded gs).dispatch tx ctx) :=
  watches_through (watches_ofDriver db.driver tx) gs 0 ctx

theorem watches_exec (tx : Option τ) (cmd : Command) :
    Watches ((db.watched gs).exec tx cmd) ((db.guarded gs).exec tx cmd) :=
  (db.watches_build gs cmd).bind fun _ => (db.watches_tableOf gs cmd).bind fun _ =>
    (db.watches_dispatch gs tx _).bind fun _ => .ofExcept _

private theorem watches_fetch (tx : Option τ) (t : TypeId) (cmd : Command) :
    Watches ((db.watched gs).fetch tx t cmd) ((db.guarded gs).fetch tx t cmd) :=
  (db.watches_build gs cmd).bind fun _ => (db.watches_model gs t).bind fun _ =>
    (db.watches_dispatch gs tx _).bind fun _ => (Watches.ofExcept _).bind fun _ => .pure _

theorem watches_findMany (tx : Option τ) (blank : Entity) (cmd : Command) :
    Watches ((db.watched gs).findMany tx blank cmd) ((db.guarded gs).findMany tx blank cmd) :=
  (db.watches_fetch gs tx blank.type cmd).bind fun _ => .ofExcept _

theorem watches_findOne (tx : Option τ) (blank : Entity) (cmd : Command) :
    Watches ((db.watched gs).findOne tx blank cmd) ((db.guarded gs).findOne tx blank cmd) := by
  refine (db.watches_fetch gs tx blank.type cmd).bind fun fetched => ?_
  obtain ⟨m, rows⟩ := fetched
  dsimp only
  cases rows.toList with
  | nil => exact .fail _
  | cons row rest => exact .ofExcept _

end Database

end EntitySql
