import EntitySql.Proofs.Session.Deletion
import EntitySql.Proofs.Session.Showing
import Mathlib.Algebra.Ring.Nat
import Mathlib.Data.List.Nodup

namespace EntitySql

private theorem Duration.add_right_comm (a b c : Nat) : add (add a b) c = add (add a c) b := by
  change min (min (a + b) longest + c) longest = min (min (a + c) longest + b) longest
  omega

/-- In whatever order counters are put together, the sum is the same. -/
theorem StatementStats.merge_right_comm (a b c : StatementStats) : (a.merge b).merge c = (a.merge c).merge b := by
  have hslowest : max (max a.slowest b.slowest) c.slowest = max (max a.slowest c.slowest) b.slowest := by omega
  simp only [merge, StatementStats.mk.injEq]
  exact ⟨Nat.add_right_comm .., Nat.add_right_comm .., Duration.add_right_comm .., hslowest⟩

namespace Stats

variable {s : Stats} {key : StatsKey} {done done' : List (StatsKey × Bool)}

def keys (s : Stats) : List StatsKey := s.entries.map Prod.fst

/-- Statistics of statements, given the key of each and whether it failed. -/
structure Counts (s : Stats) (done : List (StatsKey × Bool)) : Prop where
  nodup : s.keys.Nodup
  isSome : ∀ key, (s.get? key).isSome = true ↔ ∃ d ∈ done, d.1 = key
  count : ∀ key, ((s.get? key).getD .zero).count = done.countP (·.1 = key)
  failed : ∀ key, ((s.get? key).getD .zero).failed = done.countP (· = (key, true))
  totalCount : s.totals.count = done.length
  totalFailed : s.totals.failed = done.countP (·.2)

private theorem keys_observe (s : Stats) (key : StatsKey) (elapsed : Nat) (failed : Bool) :
    (s.observe key elapsed failed).keys = if key ∈ s.keys then s.keys else s.keys ++ [key] := by
  obtain ⟨entries⟩ := s
  unfold observe keys
  induction entries with
  | nil => rfl
  | cons e rest ih =>
    obtain ⟨k, c⟩ := e
    by_cases hk : k = key
    · simp [observeIn, hk]
    · have hk' : key ≠ k := fun h => hk h.symm
      simp only [observeIn, hk, if_false, List.map_cons, List.mem_cons, hk', false_or, ih]
      split <;> rfl

private theorem nodup_keys_observe (h : s.keys.Nodup) (key : StatsKey) (elapsed : Nat) (failed : Bool) :
    (s.observe key elapsed failed).keys.Nodup := by
  rw [keys_observe]
  split
  · exact h
  · rename_i hkey
    simpa using List.Nodup.concat hkey h

private theorem mem_entries_iff (h : s.keys.Nodup) {c : StatementStats} :
    (key, c) ∈ s.entries ↔ s.get? key = some c := by
  obtain ⟨entries⟩ := s
  unfold keys at h
  unfold get?
  induction entries with
  | nil => simp
  | cons e rest ih =>
    obtain ⟨k, c'⟩ := e
    obtain ⟨hfirst, hrest⟩ := List.nodup_cons.mp h
    by_cases hk : key = k
    · subst hk
      have hnone : (key, c) ∉ rest := fun hmem => hfirst (List.mem_map.mpr ⟨(key, c), hmem, rfl⟩)
      simp [hnone, eq_comm]
    · have hkb : (key == k) = false := by simpa using hk
      simp [List.lookup_cons, hk, hkb, ih hrest]

private theorem foldl_merge (entries : List (StatsKey × StatementStats)) (start : StatementStats) :
    let sum := entries.foldl (fun sum e => sum.merge e.2) start
    sum.count = start.count + (entries.map (·.2.count)).sum ∧
      sum.failed = start.failed + (entries.map (·.2.failed)).sum := by
  induction entries generalizing start with
  | nil => exact ⟨rfl, rfl⟩
  | cons e rest ih =>
    obtain ⟨hcount, hfailed⟩ := ih (start.merge e.2)
    rw [List.map_cons, List.map_cons, List.sum_cons, List.sum_cons, ← Nat.add_assoc, ← Nat.add_assoc]
    exact ⟨hcount, hfailed⟩

private theorem totals_eq_sum (s : Stats) :
    s.totals.count = (s.entries.map (·.2.count)).sum ∧ s.totals.failed = (s.entries.map (·.2.failed)).sum := by
  obtain ⟨hcount, hfailed⟩ := foldl_merge s.entries .zero
  exact ⟨hcount.trans (Nat.zero_add _), hfailed.trans (Nat.zero_add _)⟩

private theorem totals_perm {s' : Stats} (h : s.entries.Perm s'.entries) : s.totals = s'.totals := by
  unfold totals
  exact h.foldl_eq' (fun x _ y _ (sum : StatementStats) => sum.merge_right_comm x.2 y.2) _

private theorem sum_observeIn (key : StatsKey) (elapsed : Nat) (failed : Bool)
    (entries : List (StatsKey × StatementStats)) :
    ((observeIn key elapsed failed entries).map (·.2.count)).sum = (entries.map (·.2.count)).sum + 1 ∧
      ((observeIn key elapsed failed entries).map (·.2.failed)).sum =
        (entries.map (·.2.failed)).sum + failed.toNat := by
  induction entries with
  | nil => simp [observeIn, StatementStats.observe, StatementStats.zero]
  | cons e rest ih =>
    obtain ⟨k, c⟩ := e
    by_cases hk : k = key
    · simp only [observeIn, hk, if_true, List.map_cons, List.sum_cons, StatementStats.observe]
      omega
    · simp only [observeIn, hk, if_false, List.map_cons, List.sum_cons]
      omega

private theorem totals_observe (s : Stats) (key : StatsKey) (elapsed : Nat) (failed : Bool) :
    (s.observe key elapsed failed).totals.count = s.totals.count + 1 ∧
      (s.observe key elapsed failed).totals.failed = s.totals.failed + failed.toNat := by
  simp only [(totals_eq_sum _).1, (totals_eq_sum _).2]
  exact sum_observeIn key elapsed failed s.entries

private theorem counts_empty : empty.Counts [] :=
  ⟨List.nodup_nil, fun _ => ⟨nofun, fun ⟨_, hd, _⟩ => (List.not_mem_nil hd).elim⟩, fun _ => rfl, fun _ => rfl, rfl, rfl⟩

/-- One more statement is put down under its key, and nothing else changes. -/
theorem Counts.observe (h : s.Counts done) (key : StatsKey) (elapsed : Nat) (failed : Bool) :
    (s.observe key elapsed failed).Counts ((key, failed) :: done) where
  nodup := nodup_keys_observe h.nodup key elapsed failed
  isSome other := by
    rw [get?_observe]
    by_cases hother : other = key
    · simp [hother]
    · have hkey : key ≠ other := fun h => hother h.symm
      simp [hother, hkey, h.isSome]
  count other := by
    rw [get?_observe, List.countP_cons, ← h.count]
    by_cases hother : other = key
    · simp [hother, StatementStats.observe]
    · have hkey : key ≠ other := fun h => hother h.symm
      simp [hother, hkey]
  failed other := by
    rw [get?_observe, List.countP_cons, ← h.failed]
    by_cases hother : other = key
    · cases failed <;> simp [hother, StatementStats.observe]
    · have hkey : key ≠ other := fun h => hother h.symm
      simp [hother, hkey]
  totalCount := by rw [(totals_observe s key elapsed failed).1, h.totalCount, List.length_cons]
  totalFailed := by
    rw [(totals_observe s key elapsed failed).2, h.totalFailed, List.countP_cons]
    cases failed <;> rfl

private theorem Counts.perm (h : s.Counts done) (hp : done.Perm done') : s.Counts done' where
  nodup := h.nodup
  isSome key := by simp only [h.isSome, hp.mem_iff]
  count key := (h.count key).trans (hp.countP_eq _)
  failed key := (h.failed key).trans (hp.countP_eq _)
  totalCount := h.totalCount.trans hp.length_eq
  totalFailed := h.totalFailed.trans (hp.countP_eq _)

end Stats

/-- How far a statement has come with an interceptor that counts it. -/
inductive Passage where
  | under (key : StatsKey) (since : Nat)
  /-- It is back with an outcome, and not counted yet. -/
  | back (key : StatsKey) (elapsed : Nat) (failed : Bool)
  | counted (key : StatsKey) (failed : Bool) (resets : Nat)
  deriving DecidableEq, Repr

/-- Statistics, the number of times they were reset, and the statements that came to any of the interceptors that
share them. -/
structure Tally where
  stats : Stats
  resets : Nat
  passages : List Passage
  deriving DecidableEq, Repr

/-- How many resets there had been when a statement was counted. -/
def Passage.resets : Passage → Nat
  | .counted _ _ resets => resets
  | .under _ _ | .back _ _ _ => 0

/-- The statement that was counted since the last of some number of resets: its key, and whether it failed. -/
def Passage.completion? (resets : Nat) : Passage → Option (StatsKey × Bool)
  | .counted key failed before => if before = resets then some (key, failed) else none
  | .under _ _ | .back _ _ _ => none

namespace Tally

/-- What may happen next. -/
inductive Move where
  /-- A statement comes to an interceptor, which passes it on. -/
  | enter (key : StatsKey) (now : Nat)
  | back (n now : Nat) (failed : Bool)
  /-- The statement in a place is put into the statistics, which nobody else does or reads meanwhile. -/
  | count (n : Nat)
  | reset
  deriving DecidableEq, Repr

def start : Tally := ⟨.empty, 0, []⟩

/-- What comes of a move; a statement that is not so far stays where it is. -/
def move (t : Tally) : Move → Tally
  | .enter key now => { t with passages := t.passages ++ [.under key now] }
  | .back n now failed =>
    match t.passages[n]? with
    | some (.under key since) => { t with passages := t.passages.set n (.back key (now - since) failed) }
    | _ => t
  | .count n =>
    match t.passages[n]? with
    | some (.back key elapsed failed) =>
      { t with
        stats := t.stats.observe key elapsed failed
        passages := t.passages.set n (.counted key failed t.resets) }
    | _ => t
  | .reset => { t with stats := .empty, resets := t.resets + 1 }

def after (t : Tally) (moves : List Move) : Tally := moves.foldl move t

/-- The statements that were counted since the last reset. -/
def completed (t : Tally) : List (StatsKey × Bool) := t.passages.filterMap (Passage.completion? t.resets)

/-- The statistics are about the statements that were counted since the last reset, and none was counted after
more resets than there were. -/
structure Sound (t : Tally) : Prop where
  counts : t.stats.Counts t.completed
  resets : ∀ p ∈ t.passages, p.resets ≤ t.resets

variable {t : Tally}

private theorem filterMap_set {α β : Type} {f : α → Option β} {xs : List α} {n : Nat} {x : α} (y : α)
    (h : xs[n]? = some x)
    (hx : f x = none) : ((xs.set n y).filterMap f).Perm ((f y).toList ++ xs.filterMap f) := by
  induction xs generalizing n with
  | nil => cases h
  | cons first rest ih =>
    cases n with
    | zero =>
      cases h
      rw [List.set_cons_zero, List.filterMap_cons_none hx]
      cases hy : f y with
      | none => rw [List.filterMap_cons_none hy]; exact .refl _
      | some z => rw [List.filterMap_cons_some hy]; exact .refl _
    | succ n =>
      rw [List.set_cons_succ]
      have hrest := ih h
      cases hfirst : f first with
      | none =>
        rw [List.filterMap_cons_none hfirst, List.filterMap_cons_none hfirst]
        exact hrest
      | some z =>
        rw [List.filterMap_cons_some hfirst, List.filterMap_cons_some hfirst]
        exact (hrest.cons z).trans List.perm_middle.symm

private theorem completed_enter (t : Tally) (key : StatsKey) (now : Nat) :
    (t.move (.enter key now)).completed = t.completed := by
  simp [move, completed, Passage.completion?]

private theorem completed_back {n since : Nat} {key : StatsKey} (hn : t.passages[n]? = some (.under key since))
    (now : Nat)
    (failed : Bool) : (t.move (.back n now failed)).completed.Perm t.completed := by
  rw [move, hn]
  exact filterMap_set (.back key (now - since) failed) hn (f := Passage.completion? t.resets) rfl

/-- A statement that is counted is one more, whatever was counted before it. -/
theorem completed_count {n elapsed : Nat} {key : StatsKey} {failed : Bool}
    (hn : t.passages[n]? = some (.back key elapsed failed)) :
    (t.move (.count n)).completed.Perm ((key, failed) :: t.completed) := by
  have hnew : Passage.completion? t.resets (.counted key failed t.resets) = some (key, failed) := if_pos rfl
  have hcompleted := filterMap_set (.counted key failed t.resets) hn (f := Passage.completion? t.resets) rfl
  rw [hnew] at hcompleted
  rw [move, hn]
  exact hcompleted

/-- Every mark is one reset too old then, so nothing counts as counted. -/
theorem completed_reset (h : ∀ p ∈ t.passages, p.resets ≤ t.resets) : (t.move .reset).completed = [] := by
  refine List.filterMap_eq_nil_iff.mpr fun p hp => ?_
  cases p with
  | under key since => rfl
  | back key elapsed failed => rfl
  | counted key failed resets =>
    have hle : resets ≤ t.resets := h _ hp
    exact if_neg (Nat.ne_of_lt (Nat.lt_succ_of_le hle))

private theorem resets_set {n resets : Nat} {passages : List Passage} {p : Passage}
    (h : ∀ p ∈ passages, p.resets ≤ resets)
    (hp : p.resets ≤ resets) : ∀ p' ∈ passages.set n p, p'.resets ≤ resets := fun p' hmem => by
  rcases List.mem_or_eq_of_mem_set hmem with hmem | rfl
  · exact h p' hmem
  · exact hp

private theorem sound_start : start.Sound := ⟨Stats.counts_empty, nofun⟩

private theorem Sound.move (h : t.Sound) (m : Move) : (t.move m).Sound := by
  cases m with
  | enter key now =>
    refine ⟨completed_enter t key now ▸ h.counts, List.forall_mem_append.mpr ⟨h.resets, ?_⟩⟩
    exact List.forall_mem_singleton.mpr (Nat.zero_le _)
  | back n now failed =>
    rw [Tally.move]
    split
    · rename_i key since hn
      have hcompleted := completed_back hn now failed
      rw [Tally.move, hn] at hcompleted
      exact ⟨h.counts.perm hcompleted.symm, resets_set h.resets (Nat.zero_le _)⟩
    · exact h
  | count n =>
    rw [Tally.move]
    split
    · rename_i key elapsed failed hn
      have hcompleted := completed_count hn
      rw [Tally.move, hn] at hcompleted
      exact ⟨(h.counts.observe key elapsed failed).perm hcompleted.symm, resets_set h.resets (Nat.le_refl _)⟩
    · exact h
  | reset => exact ⟨completed_reset h.resets ▸ Stats.counts_empty, fun p hp => Nat.le_succ_of_le (h.resets p hp)⟩

private theorem Sound.after (h : t.Sound) (moves : List Move) : (t.after moves).Sound := by
  induction moves generalizing t with
  | nil => exact h
  | cons m rest ih => exact ih (h.move m)

/-- What anyone who looks at the statistics finds. -/
structure Exact (t : Tally) : Prop where
  /-- A key has an entry if and only if a statement of it was counted since the last reset. -/
  entry : ∀ key, t.stats.get? key ≠ none ↔ ∃ c ∈ t.completed, c.1 = key
  counters : ∀ key c, t.stats.get? key = some c →
    c.count = t.completed.countP (·.1 = key) ∧ c.failed = t.completed.countP (· = (key, true))
  /-- All entries together are those of the keys, one for each. -/
  snapshot : t.stats.keys.Nodup ∧ ∀ key c, (key, c) ∈ t.stats.entries ↔ t.stats.get? key = some c
  totals : ∀ entries, entries.Perm t.stats.entries → (Stats.mk entries).totals = t.stats.totals
  sums : t.stats.totals.count = (t.stats.entries.map (·.2.count)).sum ∧
    t.stats.totals.failed = (t.stats.entries.map (·.2.failed)).sum
  total : t.stats.totals.count = t.completed.length ∧ t.stats.totals.failed = t.completed.countP (·.2)
  /-- So no counter overflows that has room for the number of statements. -/
  bounds : ∀ c, (c = t.stats.totals ∨ ∃ key, t.stats.get? key = some c) →
    c.failed ≤ c.count ∧ c.count ≤ t.passages.length

private theorem Sound.counters (h : t.Sound) {key : StatsKey} {c : StatementStats} (hc : t.stats.get? key = some c) :
    c.count = t.completed.countP (·.1 = key) ∧ c.failed = t.completed.countP (· = (key, true)) := by
  have hcount := h.counts.count key
  have hfailed := h.counts.failed key
  rw [hc] at hcount hfailed
  exact ⟨hcount, hfailed⟩

private theorem Sound.exact (h : t.Sound) : t.Exact where
  entry key := by rw [← Option.isSome_iff_ne_none, h.counts.isSome]
  counters key c hc := h.counters hc
  snapshot := ⟨h.counts.nodup, fun key c => Stats.mem_entries_iff h.counts.nodup⟩
  totals entries hp := Stats.totals_perm hp
  sums := Stats.totals_eq_sum t.stats
  total := ⟨h.counts.totalCount, h.counts.totalFailed⟩
  bounds c hc := by
    have hlength : t.completed.length ≤ t.passages.length := List.length_filterMap_le _ _
    rcases hc with rfl | ⟨key, hc⟩
    · rw [h.counts.totalCount, h.counts.totalFailed]
      exact ⟨List.countP_le_length, hlength⟩
    · obtain ⟨hcount, hfailed⟩ := h.counters hc
      rw [hcount, hfailed]
      refine ⟨List.countP_mono_left fun d _ hd => ?_, Nat.le_trans List.countP_le_length hlength⟩
      have hd : d = (key, true) := by simpa using hd
      simp [hd]

end Tally

section Chain

variable {σ τ α : Type} {rest : Handler σ α} {ctx : Context} {s s' : Session σ α}

def Context.statsKey (ctx : Context) : StatsKey := (ctx.kind, ctx.table)

namespace Guard

/-- Whatever stands behind an interceptor that counts, and whatever else was put into the statistics meanwhile:
when a statement is back, it is added to the statistics as they are then. -/
theorem stats_of_ended {x : Except Error Outcome} (h : rest ctx s = (some x, s')) :
    Guard.stats.intercept rest ctx s =
      (some x, { s' with stats := s'.stats.observe ctx.statsKey (s'.clock - s.clock) !x.isOk }) := by
  have hclock : Run.clock s = (some (.ok s.clock), s) := rfl
  rw [intercept, Run.bind_of_ok _ hclock, Run.bind_of_ok _ (Run.attempt_of_some h)]
  rfl

private theorem stats_of_waiting (h : rest ctx s = (none, s')) : Guard.stats.intercept rest ctx s = (none, s') := by
  have hclock : Run.clock s = (some (.ok s.clock), s) := rfl
  rw [intercept, Run.bind_of_ok _ hclock, Run.bind_of_none _ (Run.attempt_of_none h)]

end Guard

private theorem Handler.through_append (last : Handler σ α) (outer inner : List (Interceptor σ α)) :
    last.through (outer ++ inner) = (last.through inner).through outer := by
  induction outer with
  | nil => rfl
  | cons i outer ih => exact congrArg i ih

/-- The interceptors that pass a statement on: all of them, or those in front of the one that turns it away. -/
def reached (gs : List (Guard α)) (ctx : Context) : List (Guard α) := gs.take ((refusal? gs ctx).getD gs.length)

section Reached

variable {g : Guard α} {gs outer inner : List (Guard α)}

private theorem reached_of_refuses (h : g.refuses ctx = true) : reached (g :: gs) ctx = [] := by
  simp [reached, refusal?_of_refuses h]

private theorem reached_of_not_refuses (h : g.refuses ctx = false) : reached (g :: gs) ctx = g :: reached gs ctx := by
  rw [reached, refusal?_of_not_refuses h, reached]
  cases refusal? gs ctx <;> rfl

private theorem isSome_refusal? : (refusal? gs ctx).isSome = gs.any (·.refuses ctx) := List.findIdx?_isSome

/-- What stands behind an interceptor that turns the statement away does not matter. -/
theorem reached_append_of_any (h : outer.any (·.refuses ctx) = true) :
    reached (outer ++ inner) ctx = reached outer ctx := by
  induction outer with
  | nil => cases h
  | cons g outer ih =>
    cases hg : g.refuses ctx with
    | true => rw [List.cons_append, reached_of_refuses hg, reached_of_refuses hg]
    | false =>
      have hrest : outer.any (·.refuses ctx) = true := by simpa [hg] using h
      rw [List.cons_append, reached_of_not_refuses hg, reached_of_not_refuses hg, ih hrest]

private theorem reached_append_of_not_any (h : outer.any (·.refuses ctx) = false) :
    reached (outer ++ inner) ctx = outer ++ reached inner ctx := by
  induction outer with
  | nil => rfl
  | cons g outer ih =>
    obtain ⟨hg, hrest⟩ : g.refuses ctx = false ∧ outer.any (·.refuses ctx) = false := by simpa using h
    rw [List.cons_append, reached_of_not_refuses hg, ih hrest, List.cons_append]

end Reached

/-- What the way of a statement adds to the statistics: nothing if it waits forever, and otherwise so many times
that it ended as it did. -/
def Counted (key : StatsKey) (n : Nat) (before : Stats) (run : Option (Except Error Outcome) × Session σ α) : Prop :=
  match run.1 with
  | none => run.2.stats = before
  | some x => ∃ times : List Nat, times.length = n ∧
      run.2.stats = times.foldl (fun stats elapsed => stats.observe key elapsed !x.isOk) before

private theorem Counted.congr {key : StatsKey} {n : Nat} {before : Stats}
    {run run' : Option (Except Error Outcome) × Session σ α} (h : Counted key n before run) (hresult : run'.1 = run.1)
    (hstats : run'.2.stats = run.2.stats) : Counted key n before run' := by
  unfold Counted
  rw [hresult, hstats]
  exact h

private theorem Counted.never {key : StatsKey} {before : Stats} {run : Option (Except Error Outcome) × Session σ α}
    (h : Counted key 0 before run) : run.2.stats = before := by
  unfold Counted at h
  split at h
  · exact h
  · obtain ⟨times, hlength, hstats⟩ := h
    rw [hstats, List.length_eq_zero_iff.mp hlength, List.foldl_nil]

private theorem Counted.once {key : StatsKey} {before : Stats} {run : Option (Except Error Outcome) × Session σ α}
    {x : Except Error Outcome} (h : Counted key 1 before run) (hx : run.1 = some x) :
    ∃ elapsed, run.2.stats = before.observe key elapsed !x.isOk := by
  unfold Counted at h
  rw [hx] at h
  obtain ⟨times, hlength, hstats⟩ := h
  obtain ⟨elapsed, rfl⟩ := List.length_eq_one_iff.mp hlength
  exact ⟨elapsed, hstats⟩

private theorem ofDriver_stats (d : Driver σ τ α) (tx : Option τ) (ctx : Context) (s : Session σ α) :
    (Handler.ofDriver d tx ctx s).2.stats = s.stats := by
  rw [ofDriver_eq_call]
  rfl

/-- An interceptor that counts adds the statement once more, when what stands behind it is done. -/
theorem Counted.stats {n : Nat} (h : Counted ctx.statsKey n s.stats (rest ctx s)) :
    Counted ctx.statsKey (n + 1) s.stats (Guard.stats.intercept rest ctx s) := by
  rcases hrest : rest ctx s with ⟨_ | x, s'⟩
  · rw [hrest] at h
    rw [Guard.stats_of_waiting hrest]
    exact h
  · rw [hrest] at h
    obtain ⟨times, hlength, hstats⟩ := h
    rw [Guard.stats_of_ended hrest]
    refine ⟨times ++ [s'.clock - s.clock], by rw [List.length_append, hlength]; rfl, ?_⟩
    rw [List.foldl_append, ← hstats]
    rfl

/-- Every interceptor that counts and that a statement comes to counts it once, with its outcome. -/
theorem counted_through (d : Driver σ τ α) (tx : Option τ) (gs : List (Guard α)) (ctx : Context) (s : Session σ α) :
    Counted ctx.statsKey ((reached gs ctx).countP (·.isStats)) s.stats
      ((Handler.ofDriver d tx).through (gs.map Guard.intercept) ctx s) := by
  induction gs generalizing ctx s with
  | nil =>
    unfold Counted
    have hstats := ofDriver_stats d tx ctx s
    cases hrun : (Handler.ofDriver d tx ctx s).1 with
    | none => simpa [Handler.through, hrun] using hstats
    | some x => simpa [Handler.through, hrun, reached] using hstats
  | cons g gs ih =>
    let rest := (Handler.ofDriver d tx).through (gs.map Guard.intercept)
    cases hg : g.refuses ctx with
    | true =>
      rw [reached_of_refuses hg, List.map_cons, Handler.through, Guard.intercept_of_refuses hg]
      exact ⟨[], rfl, rfl⟩
    | false =>
      rw [reached_of_not_refuses hg, List.countP_cons]
      cases hstats : g.isStats with
      | true =>
        cases g with
        | stats => exact (ih ctx s).stats
        | safeDelete | statementLog _ _ | slowStatement _ _ | span _ => cases hstats
      | false =>
        -- What such an interceptor adds is a note or a span, and neither is part of the statistics.
        have hidle : g.isStats = true → ∀ (s : Session σ α) stats, Session.stats { s with stats } = s.stats :=
          fun h => by rw [hstats] at h; cases h
        obtain ⟨s', spans, hs', hpass⟩ := Guard.intercept_keeps (·.stats) (fun _ _ => rfl) hidle hg s
        obtain ⟨hresult, hend⟩ := hpass rest
        have hrest := ih { ctx with spans } s'
        rw [hs', reached, refusal?_spans] at hrest
        exact hrest.congr hresult hend

/-- What an interceptor does to the statistics when a statement is back is what the two moves of that statement do
to them, whatever the others that share them have on their way. -/
theorem Guard.stats_of_moves {x : Except Error Outcome} (h : rest ctx s = (some x, s')) {t : Tally} {n : Nat}
    (hstats : t.stats = s'.stats) (hn : t.passages[n]? = some (.under ctx.statsKey s.clock)) :
    (t.after [.back n s'.clock !x.isOk, .count n]).stats = (Guard.stats.intercept rest ctx s).2.stats := by
  obtain ⟨hlength, -⟩ := List.getElem?_eq_some_iff.mp hn
  rw [Guard.stats_of_ended h, Tally.after, List.foldl_cons, Tally.move, hn]
  simp [Tally.move, hlength, hstats]

/-- One interceptor that counts among others that do not. What is turned away in front of it is not counted, what
is turned away behind it is counted as a failure, and anything else with its outcome. -/
theorem dispatch_counted (db : Database σ τ α) (tx : Option τ) {outer inner : List (Guard α)} (ctx : Context)
    (s : Session σ α) (hothers : ∀ g ∈ outer ++ inner, g.isStats = false) :
    let run := (db.guarded (outer ++ .stats :: inner)).dispatch tx ctx s
    (outer.any (·.refuses ctx) = true → run.1 = some (.error .unsafeDelete) ∧ run.2.stats = s.stats) ∧
      (outer.any (·.refuses ctx) = false →
        (inner.any (·.refuses ctx) = true → run.1 = some (.error .unsafeDelete) ∧
          ∃ elapsed, run.2.stats = s.stats.observe ctx.statsKey elapsed true) ∧
        ∀ x, run.1 = some x → ∃ elapsed, run.2.stats = s.stats.observe ctx.statsKey elapsed !x.isOk) := by
  have hcounted := counted_through db.driver tx (outer ++ .stats :: inner) ctx s
  have hrefused (h : (outer.any (·.refuses ctx) || inner.any (·.refuses ctx)) = true) :
      ((db.guarded (outer ++ .stats :: inner)).dispatch tx ctx s).1 = some (.error .unsafeDelete) := by
    refine (through_result db.driver tx (outer ++ .stats :: inner) ctx s).trans (if_pos ?_)
    rw [isSome_refusal?]
    simpa [Guard.refuses, Guard.isSafeDelete] using h
  have hnone {gs : List (Guard α)} (hgs : ∀ g ∈ gs, g ∈ outer ++ inner) :
      (gs.countP (·.isStats)) = 0 :=
    List.countP_eq_zero.mpr fun g hg => by simp [hothers g (hgs g hg)]
  have hinner : (reached inner ctx).countP (·.isStats) = 0 :=
    hnone fun g hg => List.mem_append_right _ (List.mem_of_mem_take hg)
  refine ⟨fun h => ⟨hrefused (by simp [h]), ?_⟩, fun h => ?_⟩
  · have houter : (reached outer ctx).countP (·.isStats) = 0 :=
      hnone fun g hg => List.mem_append_left _ (List.mem_of_mem_take hg)
    rw [reached_append_of_any h, houter] at hcounted
    exact hcounted.never
  · have houter : outer.countP (·.isStats) = 0 := hnone fun g hg => List.mem_append_left _ hg
    have hstats : (Guard.stats : Guard α).refuses ctx = false := rfl
    rw [reached_append_of_not_any h, reached_of_not_refuses hstats, List.countP_append, houter,
      List.countP_cons_of_pos rfl, hinner] at hcounted
    exact ⟨fun h' => ⟨hrefused (by simp [h']), hcounted.once (hrefused (by simp [h']))⟩, fun x hx => hcounted.once hx⟩

end Chain

namespace Tally

/-- At any moment the statistics are exactly about the statements that were counted since they were last reset,
whoever sent them and whatever else was on its way. An interceptor that counts does so once for each statement that
comes to it, when the statement is back, and whatever the interceptors behind it are; one that the statement does
not come to does not count it. -/
theorem exact_after {σ τ α : Type} :
    (∀ moves : List Move, (start.after moves).Exact) ∧
      (∀ (rest : Handler σ α) (ctx : Context) (s s' : Session σ α),
        (rest ctx s = (none, s') → Guard.stats.intercept rest ctx s = (none, s')) ∧
          ∀ x, rest ctx s = (some x, s') →
            Guard.stats.intercept rest ctx s =
                (some x, { s' with stats := s'.stats.observe (ctx.kind, ctx.table) (s'.clock - s.clock) !x.isOk }) ∧
              ∀ (t : Tally) (n : Nat), t.stats = s'.stats →
                t.passages[n]? = some (.under (ctx.kind, ctx.table) s.clock) →
                (t.after [.back n s'.clock !x.isOk, .count n]).stats =
                  (Guard.stats.intercept rest ctx s).2.stats) ∧
      (∀ (last : Handler σ α) (outer inner : List (Interceptor σ α)) (ctx : Context) (s : Session σ α),
        (∀ next next' : Handler σ α, next.through outer ctx s = next'.through outer ctx s) →
          last.through (outer ++ Guard.stats.intercept :: inner) ctx s = last.through outer ctx s) ∧
      ∀ (db : Database σ τ α) (tx : Option τ) (outer inner : List (Guard α)) (ctx : Context) (s : Session σ α),
        (∀ g ∈ outer ++ inner, g.isStats = false) →
          let run := (db.guarded (outer ++ .stats :: inner)).dispatch tx ctx s
          (outer.any (·.refuses ctx) = true → run.1 = some (.error .unsafeDelete) ∧ run.2.stats = s.stats) ∧
            (outer.any (·.refuses ctx) = false →
              (inner.any (·.refuses ctx) = true → run.1 = some (.error .unsafeDelete) ∧
                ∃ elapsed, run.2.stats = s.stats.observe (ctx.kind, ctx.table) elapsed true) ∧
              ∀ x, run.1 = some x →
                ∃ elapsed, run.2.stats = s.stats.observe (ctx.kind, ctx.table) elapsed !x.isOk) := by
  refine ⟨fun moves => (sound_start.after moves).exact, fun rest ctx s s' => ⟨Guard.stats_of_waiting, fun x h => ?_⟩,
    fun last outer inner ctx s h => ?_, fun db tx outer inner ctx s h => dispatch_counted db tx ctx s h⟩
  · exact ⟨Guard.stats_of_ended h, fun t n hstats hn => Guard.stats_of_moves h hstats hn⟩
  · rw [Handler.through_append]
    exact h ..

/-- Of two statements on their way when the statistics are reset, one comes back and is counted after it, and the
other is not counted yet. A deletion without a condition is counted only in front of the interceptor that turns it
away. -/
theorem exact_after_reset :
    let select : StatsKey := (.select, some "user")
    let raw : StatsKey := (.raw, none)
    let t := start.after [.enter select 0, .enter raw 1, .back 0 5 false, .count 0, .enter select 6, .reset,
      .back 1 9 true, .count 1, .back 2 10 false]
    let db := Database.ofNotes .mysql
    let deletion : Context := ⟨.delete, .execute, ⟨"DELETE FROM `note`;", []⟩, some "note", []⟩
    let stats (gs : List (Guard Unit)) := ((db.guarded gs).dispatch none deletion (Session.start ())).2.stats
    t.completed = [(raw, true)] ∧ t.stats.get? raw = some ⟨1, 1, 8, 8⟩ ∧ t.stats.get? select = none ∧
      t.stats.totals.count = 1 ∧
      (∃ elapsed, stats [.stats, .safeDelete] = Stats.empty.observe (.delete, some "note") elapsed true) ∧
      stats [.safeDelete, .stats] = Stats.empty := by
  intro select raw t db deletion stats
  obtain ⟨hexact, -, -, hdispatch⟩ := @exact_after Unit Unit Unit
  have hcompleted : t.completed = [(raw, true)] := by decide
  have hnone : t.stats.get? select = none := by
    by_contra hentry
    obtain ⟨c, hc, hkey⟩ := ((hexact _).entry select).mp hentry
    rw [hcompleted, List.mem_singleton] at hc
    rw [hc] at hkey
    exact absurd hkey (by decide)
  have hunsafe : ([.safeDelete] : List (Guard Unit)).any (·.refuses deletion) = true := by decide
  have hothers : ∀ g ∈ ([.safeDelete] : List (Guard Unit)), g.isStats = false := by simp [Guard.isStats]
  have hbehind := hdispatch db none [] [.safeDelete] deletion (Session.start ()) hothers
  have hinFront := hdispatch db none [.safeDelete] [] deletion (Session.start ()) hothers
  exact ⟨hcompleted, by decide, hnone, (hexact _).total.1.trans (by rw [hcompleted]; rfl),
    ((hbehind.2 rfl).1 hunsafe).2, (hinFront.1 hunsafe).2⟩

end Tally

end EntitySql
