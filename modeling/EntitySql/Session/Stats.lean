import EntitySql.Sql.Command

namespace EntitySql

namespace Duration

def second : Nat := 1000000000

/-- The longest duration: one nanosecond less than two to the sixty-four seconds. -/
def longest : Nat := Nat.pow 2 64 * second - 1

/-- The sum of two durations, or the longest one. -/
def add (a b : Nat) : Nat := Nat.min (a + b) longest

end Duration

/-- The counters of one kind and table. -/
structure StatementStats where
  count : Nat
  failed : Nat
  total : Nat
  slowest : Nat
  deriving DecidableEq, Repr

namespace StatementStats

def zero : StatementStats := ⟨0, 0, 0, 0⟩

instance : Inhabited StatementStats := ⟨zero⟩

def observe (s : StatementStats) (elapsed : Nat) (failed : Bool) : StatementStats :=
  ⟨s.count + 1, s.failed + failed.toNat, Duration.add s.total elapsed, Nat.max s.slowest elapsed⟩

def merge (s t : StatementStats) : StatementStats :=
  ⟨s.count + t.count, s.failed + t.failed, Duration.add s.total t.total, Nat.max s.slowest t.slowest⟩

/-- The mean time of a statement. It is zero without statements, and for counts that take more than
thirty-two bits. -/
def mean (s : StatementStats) : Nat :=
  if s.count = 0 || Nat.pow 2 32 ≤ s.count then 0 else s.total / s.count

end StatementStats

abbrev StatsKey := StatementKind × Option String

/-- The counters of every kind and table that a statement ran with. -/
structure Stats where
  entries : List (StatsKey × StatementStats)
  deriving DecidableEq, Repr

namespace Stats

def empty : Stats := ⟨[]⟩

instance : Inhabited Stats := ⟨empty⟩

def get? (s : Stats) (key : StatsKey) : Option StatementStats := s.entries.lookup key

def observeIn (key : StatsKey) (elapsed : Nat) (failed : Bool) :
    List (StatsKey × StatementStats) → List (StatsKey × StatementStats)
  | [] => [(key, StatementStats.zero.observe elapsed failed)]
  | (k, c) :: rest =>
    if k = key then (k, c.observe elapsed failed) :: rest
    else (k, c) :: observeIn key elapsed failed rest

def observe (s : Stats) (key : StatsKey) (elapsed : Nat) (failed : Bool) : Stats :=
  ⟨observeIn key elapsed failed s.entries⟩

def totals (s : Stats) : StatementStats :=
  s.entries.foldl (fun sum e => sum.merge e.2) .zero

/-- The order of keys: by the name of the kind, then without a table first, then by the table. -/
def keyBefore (a b : StatsKey) : Bool :=
  a.1.name < b.1.name || a.1.name == b.1.name &&
    match a.2, b.2 with
    | none, _ => true
    | some _, none => false
    | some s, some t => s ≤ t

def ordered (s : Stats) : List (StatsKey × StatementStats) :=
  s.entries.mergeSort fun a b => keyBefore a.1 b.1

theorem get?_observe (s : Stats) (key other : StatsKey) (elapsed : Nat) (failed : Bool) :
    (s.observe key elapsed failed).get? other =
      if other = key then some (((s.get? key).getD .zero).observe elapsed failed) else s.get? other := by
  obtain ⟨entries⟩ := s
  unfold observe get?
  induction entries with
  | nil =>
    by_cases h : other = key
    · simp [observeIn, h]
    · have hb : (other == key) = false := by simpa using h
      simp [observeIn, List.lookup_cons, h, hb]
  | cons e rest ih =>
    obtain ⟨k, c⟩ := e
    by_cases hk : k = key
    · subst hk
      by_cases h : other = k
      · simp [observeIn, h]
      · have hb : (other == k) = false := by simpa using h
        simp [observeIn, List.lookup_cons, h, hb]
    · have hkb : (key == k) = false := by simpa using Ne.symm hk
      by_cases h : other = k
      · subst h; simp [observeIn, hk]
      · have hb : (other == k) = false := by simpa using h
        simp only [observeIn, hk, if_false, List.lookup_cons, hb, hkb]
        exact ih

end Stats

end EntitySql
