import EntitySql.Model.Visit

namespace EntitySql

namespace Visit

/-- What a turn can be. -/
inductive Took (n : Nat) (c : Cache) : Visit → Turn → Prop
  | pass {v w : Visit} {parsed : Option Model} (hv : ∀ e r, v ≠ left e r) (hw : ∀ e k, w ≠ left e (.ok k))
    (herrand : w.errand = v.errand) (hget : ∀ t, v.errand = .get t → c.kept? t = none ∧ parsed = none) :
    Took n c v ⟨w, c, parsed⟩
  | found {v : Visit} {t : TypeId} {k : Copy} (hv : ∀ e r, v ≠ left e r) (herrand : v.errand = .get t)
    (hk : c.kept? t = some k) : Took n c v ⟨left (.get t) (.ok k), c, none⟩
  | filled {t : TypeId} {m : Model} (hk : c.kept? t = none) :
    Took n c (fill t) ⟨left (.get t) (.ok ⟨n, m⟩), c.keep t ⟨n, m⟩, some m⟩
  | handed {t : TypeId} {options : List ModelOption} {m : Model} :
    Took n c (hand t options m) ⟨left (.register t options) (.ok ⟨n, m⟩), c.keep t ⟨n, m⟩, none⟩
  | gone {e : Errand} {r : Except Error Copy} : Took n c (left e r) ⟨left e r, c, none⟩

private theorem took_turn (schema : Schema) (n : Nat) (c : Cache) (v : Visit) : Took n c v (v.turn schema n c) := by
  cases v with
  | look t =>
    cases hk : c.kept? t with
    | some k =>
      rw [show (look t).turn schema n c = ⟨left (.get t) (.ok k), c, none⟩ by simp [turn, hk]]
      exact .found (by rintro - - ⟨⟩) rfl hk
    | none =>
      rw [show (look t).turn schema n c = ⟨fill t, c, none⟩ by simp [turn, hk]]
      exact .pass (by rintro - - ⟨⟩) (by rintro - - ⟨⟩) rfl fun u hu => by cases hu; exact ⟨hk, rfl⟩
  | fill t =>
    cases hk : c.kept? t with
    | some k =>
      rw [show (fill t).turn schema n c = ⟨left (.get t) (.ok k), c, none⟩ by simp [turn, hk]]
      exact .found (by rintro - - ⟨⟩) rfl hk
    | none =>
      cases hm : schema.parse t with
      | ok m =>
        rw [show (fill t).turn schema n c = ⟨left (.get t) (.ok ⟨n, m⟩), c.keep t ⟨n, m⟩, some m⟩ by
          simp [turn, hk, hm]]
        exact .filled hk
      | error e =>
        rw [show (fill t).turn schema n c = ⟨left (.get t) (.error e), c, none⟩ by simp [turn, hk, hm]]
        exact .pass (by rintro - - ⟨⟩) (by rintro - - ⟨⟩) rfl fun u hu => by cases hu; exact ⟨hk, rfl⟩
  | make t options =>
    cases hm : schema.parse t with
    | error e =>
      rw [show (make t options).turn schema n c = ⟨left (.register t options) (.error e), c, none⟩ by
        simp [turn, hm]]
      exact .pass (by rintro - - ⟨⟩) (by rintro - - ⟨⟩) rfl (by rintro - ⟨⟩)
    | ok m =>
      cases ha : m.applyAll options with
      | error e =>
        rw [show (make t options).turn schema n c = ⟨left (.register t options) (.error e), c, some m⟩ by
          simp [turn, hm, ha]]
        exact .pass (by rintro - - ⟨⟩) (by rintro - - ⟨⟩) rfl (by rintro - ⟨⟩)
      | ok made =>
        rw [show (make t options).turn schema n c = ⟨hand t options made, c, some m⟩ by
          simp [turn, hm, ha]]
        exact .pass (by rintro - - ⟨⟩) (by rintro - - ⟨⟩) rfl (by rintro - ⟨⟩)
  | hand t options m => exact .handed
  | left e r => exact .gone

private theorem Took.errand_eq {n : Nat} {c : Cache} {v : Visit} {after : Turn} (h : Took n c v after) :
    after.visit.errand = v.errand := by
  cases h with
  | pass hv hw herrand hget => exact herrand
  | found hv herrand hk => exact herrand.symm
  | filled hk => rfl
  | handed => rfl
  | gone => rfl

/-- A turn that changes what is kept is the last of its visit, which leaves with the copy kept. -/
theorem Took.cache_eq {n : Nat} {c : Cache} {v : Visit} {after : Turn} (h : Took n c v after) :
    after.cache = c ∨
      ∃ k, after.visit = left v.errand (.ok k) ∧ after.cache = c.keep v.errand.type k := by
  cases h with
  | pass hv hw herrand hget => exact .inl rfl
  | found hv herrand hk => exact .inl rfl
  | filled hk => exact .inr ⟨_, rfl, rfl⟩
  | handed => exact .inr ⟨_, rfl, rfl⟩
  | gone => exact .inl rfl

end Visit

open Visit (Took)

/-- Callers at one registry. -/
structure Traffic where
  cache : Cache
  /-- All that have come, each in the place of its number. -/
  visits : List Visit
  /-- The models parsed so far, each with the errand of its visit. -/
  parsed : List (Errand × Model)

namespace Traffic

def empty : Traffic := ⟨.empty, [], []⟩

def come (s : Traffic) (e : Errand) : Traffic := { s with visits := s.visits ++ [e.start] }

/-- The next turn of a visit, while the types report what `schema` says. -/
def turn (s : Traffic) (schema : Schema) (n : Nat) : Traffic :=
  match s.visits[n]? with
  | none => s
  | some v =>
    let after := v.turn schema n s.cache
    ⟨after.cache, s.visits.set n after.visit,
      s.parsed ++ (after.parsed.map fun m => (v.errand, m)).toList⟩

/-- What can happen next. What a type reports may differ from turn to turn. -/
inductive Move where
  | come (e : Errand)
  | turn (schema : Schema) (n : Nat)

def move (s : Traffic) : Move → Traffic
  | .come e => s.come e
  | .turn schema n => s.turn schema n

def after (s : Traffic) (moves : List Move) : Traffic := moves.foldl move s

/-- What each move preserves, moves in order preserve. -/
theorem after_induct {P : Traffic → Prop} (hmove : ∀ s m, P s → P (s.move m)) {s : Traffic} (hs : P s)
    (moves : List Move) : P (s.after moves) := by
  induction moves generalizing s with
  | nil => exact hs
  | cons m rest ih => exact ih (hmove s m hs)

/-- A registration of a type has left with a copy, which it has put into the registry. -/
def Registered (s : Traffic) (t : TypeId) (k : Copy) : Prop :=
  ∃ options, Visit.left (.register t options) (.ok k) ∈ s.visits

def Got (s : Traffic) (t : TypeId) (k : Copy) : Prop := Visit.left (.get t) (.ok k) ∈ s.visits

/-- The number of times that a get has parsed a type. -/
def parses (s : Traffic) (t : TypeId) : Nat := s.parsed.countP fun p => p.1 = .get t

variable {s : Traffic} {t : TypeId}

private theorem turn_of_some {schema : Schema} {n : Nat} {v : Visit} (hv : s.visits[n]? = some v) :
    s.turn schema n =
      ⟨(v.turn schema n s.cache).cache, s.visits.set n (v.turn schema n s.cache).visit,
        s.parsed ++ ((v.turn schema n s.cache).parsed.map fun m => (v.errand, m)).toList⟩ := by
  simp [turn, hv]

private theorem turn_of_none {schema : Schema} {n : Nat} (hv : s.visits[n]? = none) : s.turn schema n = s := by
  simp [turn, hv]

private theorem left_stays (m : Move) {n : Nat} {e : Errand} {r : Except Error Copy}
    (hn : s.visits[n]? = some (.left e r)) : (s.move m).visits[n]? = some (.left e r) := by
  have hlt : n < s.visits.length := (List.getElem?_eq_some_iff.mp hn).1
  cases m with
  | come e' => exact (List.getElem?_append_left hlt).trans hn
  | turn schema i =>
    cases hi : s.visits[i]? with
    | none => rwa [move, turn_of_none hi]
    | some v =>
      rw [move, turn_of_some hi]
      by_cases hin : i = n
      · subst hin
        obtain rfl : v = .left e r := Option.some.inj (hi.symm.trans hn)
        simp [Visit.turn, hlt]
      · simpa [List.getElem?_set, hin] using hn

private theorem registered_move (m : Move) {k : Copy} (hk : s.Registered t k) : (s.move m).Registered t k := by
  obtain ⟨options, hmem⟩ := hk
  obtain ⟨n, hn⟩ := List.mem_iff_getElem?.mp hmem
  exact ⟨options, List.mem_of_getElem? (left_stays m hn)⟩

/-- Whoever has left after a turn had left before, or has left in it. -/
theorem left_mem_turn {schema : Schema} {n : Nat} {v : Visit} (hv : s.visits[n]? = some v) {e : Errand}
    {r : Except Error Copy} (hmem : Visit.left e r ∈ (s.turn schema n).visits) :
    Visit.left e r ∈ s.visits ∨ (v.turn schema n s.cache).visit = .left e r := by
  rw [turn_of_some hv] at hmem
  exact (List.mem_or_eq_of_mem_set hmem).imp_right Eq.symm

private theorem left_mem_come {e e' : Errand} {r : Except Error Copy} :
    Visit.left e r ∈ (s.come e').visits ↔ Visit.left e r ∈ s.visits := by
  have hstart : Visit.left e r ≠ e'.start := by cases e' <;> simp [Errand.start]
  simp [come, hstart]

/-- What holds of the entry of a type in every state. -/
structure Sound (s : Traffic) (t : TypeId) : Prop where
  /-- A get parses a type only while it has no entry. -/
  parses_le : s.parses t ≤ (s.cache.kept? t).toList.length
  shared : (∀ k, ¬s.Registered t k) → ∀ k, s.Got t k → s.cache.kept? t = some k
  /-- Once it is registered, its entry is that of a registration. -/
  registered : ∀ k, s.Registered t k → ∃ k', s.cache.kept? t = some k' ∧ s.Registered t k'

private theorem Sound.empty (t : TypeId) : Traffic.empty.Sound t where
  parses_le := by simp [parses, Traffic.empty]
  shared _ k hk := by simp [Got, Traffic.empty] at hk
  registered k hk := by simp [Registered, Traffic.empty] at hk

private theorem Sound.come (h : s.Sound t) (e : Errand) : (s.come e).Sound t where
  parses_le := h.parses_le
  shared hfree k hk :=
    h.shared (fun k hk => hfree k (registered_move (.come e) hk)) k (left_mem_come.mp hk)
  registered k hk := by
    obtain ⟨options, hmem⟩ := hk
    obtain ⟨k', hk', hregistered⟩ := h.registered k ⟨options, left_mem_come.mp hmem⟩
    exact ⟨k', hk', registered_move (.come e) hregistered⟩

/-- A turn leaves the entries of other types. -/
theorem kept?_turn_of_ne {schema : Schema} {n : Nat} {v : Visit} (hv : s.visits[n]? = some v)
    (hne : v.errand.type ≠ t) : (s.turn schema n).cache.kept? t = s.cache.kept? t := by
  rw [turn_of_some hv]
  rcases (Visit.took_turn schema n s.cache v).cache_eq with hc | ⟨k, -, hc⟩
  · simp only [hc]
  · simp only [hc, Cache.kept?_keep_of_ne (Ne.symm hne)]

/-- Whoever leaves in a turn with a copy has the one that is kept after it. -/
theorem kept?_of_left {schema : Schema} {n : Nat} {v : Visit} (hv : s.visits[n]? = some v) {e : Errand}
    {k : Copy} (hmem : Visit.left e (.ok k) ∈ (s.turn schema n).visits) :
    Visit.left e (.ok k) ∈ s.visits ∨ (s.turn schema n).cache.kept? e.type = some k := by
  rcases left_mem_turn hv hmem with hmem | hlast
  · exact .inl hmem
  have htook := Visit.took_turn schema n s.cache v
  rw [turn_of_some hv]
  generalize v.turn schema n s.cache = after at htook hlast ⊢
  cases htook with
  | pass hv hw herrand hget => exact absurd hlast (hw e k)
  | found hv herrand hk => cases hlast; exact .inr hk
  | filled hk => cases hlast; exact .inr (Cache.kept?_keep_self ..)
  | handed => cases hlast; exact .inr (Cache.kept?_keep_self ..)
  | gone => cases hlast; exact .inl (List.mem_of_getElem? hv)

/-- What a turn does to the entry of a type: nothing, or it fills it with what a get has parsed, or it
puts the copy of a registration there. -/
theorem entry_turn (schema : Schema) (n : Nat) (t : TypeId) :
    (s.turn schema n).cache.kept? t = s.cache.kept? t ∧ (s.turn schema n).parses t = s.parses t ∨
      s.cache.kept? t = none ∧ (∃ k, (s.turn schema n).cache.kept? t = some k) ∧
        (s.turn schema n).parses t = s.parses t + 1 ∨
      (∃ options m, s.visits[n]? = some (.hand t options m)) ∧
        (∃ k, (s.turn schema n).cache.kept? t = some k ∧ (s.turn schema n).Registered t k) ∧
        (s.turn schema n).parses t = s.parses t := by
  cases hv : s.visits[n]? with
  | none => exact .inl (by simp [turn_of_none hv])
  | some v =>
    have htook := Visit.took_turn schema n s.cache v
    have hlt : n < s.visits.length := (List.getElem?_eq_some_iff.mp hv).1
    rw [turn_of_some hv]
    generalize v.turn schema n s.cache = after at htook ⊢
    cases htook with
    | @pass v w parsed hv hw herrand hget =>
      refine .inl ⟨rfl, ?_⟩
      cases parsed with
      | none => simp [parses]
      | some m =>
        have hother : v.errand ≠ .get t := fun h => nomatch (hget t h).2
        simp [parses, hother]
    | found hv herrand hk => exact .inl (by simp [parses])
    | @filled u m hk =>
      by_cases hu : u = t
      · subst hu
        exact .inr (.inl ⟨hk, ⟨_, Cache.kept?_keep_self ..⟩, by simp [parses, Visit.errand]⟩)
      · exact .inl ⟨Cache.kept?_keep_of_ne (Ne.symm hu), by simp [parses, Visit.errand, hu]⟩
    | @handed u options m =>
      by_cases hu : u = t
      · subst hu
        have hmem : Visit.left (.register u options) (.ok ⟨n, m⟩) ∈
            s.visits.set n (.left (.register u options) (.ok ⟨n, m⟩)) := List.mem_set hlt _
        exact .inr (.inr ⟨⟨options, m, rfl⟩, ⟨_, Cache.kept?_keep_self .., options, hmem⟩, by simp [parses]⟩)
      · exact .inl ⟨Cache.kept?_keep_of_ne (Ne.symm hu), by simp [parses]⟩
    | gone => exact .inl (by simp [parses])

private theorem Sound.turn (h : s.Sound t) (schema : Schema) (n : Nat) : (s.turn schema n).Sound t := by
  cases hv : s.visits[n]? with
  | none => rwa [turn_of_none hv]
  | some v =>
    have hkeep {k : Copy} (hk : s.Registered t k) : (s.turn schema n).Registered t k :=
      registered_move (.turn schema n) hk
    refine ⟨?_, fun hfree k hk => ?_, fun k hk => ?_⟩
    · have hparses := h.parses_le
      rcases entry_turn (s := s) schema n t with ⟨he, hp⟩ | ⟨he, ⟨k, hk⟩, hp⟩ | ⟨-, ⟨k, hk, -⟩, hp⟩
      · rwa [he, hp]
      · simp only [he, Option.toList_none, List.length_nil] at hparses
        simp [hp, hk, hparses]
      · rw [hp, hk]
        exact Nat.le_trans hparses (by cases s.cache.kept? t <;> simp)
    · rcases kept?_of_left hv hk with hk | hk
      · have hkept := h.shared (fun k hk => hfree k (hkeep hk)) k hk
        rcases entry_turn (s := s) schema n t with ⟨he, -⟩ | ⟨he, -⟩ | ⟨-, ⟨k', -, hr⟩, -⟩
        · rwa [he]
        · rw [he] at hkept
          cases hkept
        · exact absurd hr (hfree k')
      · exact hk
    · obtain ⟨options, hmem⟩ := hk
      rcases kept?_of_left hv hmem with hmem' | hkept
      · obtain ⟨k', hk', hr⟩ := h.registered k ⟨options, hmem'⟩
        rcases entry_turn (s := s) schema n t with ⟨he, -⟩ | ⟨he, -⟩ | ⟨-, ⟨k'', hk'', hr'⟩, -⟩
        · exact ⟨k', he.trans hk', hkeep hr⟩
        · rw [he] at hk'
          cases hk'
        · exact ⟨k'', hk'', hr'⟩
      · exact ⟨k, hkept, options, hmem⟩

private theorem Sound.move (h : s.Sound t) : ∀ m, (s.move m).Sound t
  | .come e => h.come e
  | .turn schema n => h.turn schema n

private theorem sound_after (moves : List Move) (t : TypeId) : (empty.after moves).Sound t :=
  after_induct (P := fun s => s.Sound t) (fun _ m h => h.move m) (Sound.empty t) moves

/-- Of those that came after the first `n`, all that ask for a type have yet to look, or have left with
the copy of a registration. -/
def Late (s : Traffic) (n : Nat) (t : TypeId) : Prop :=
  ∀ i v, n ≤ i → s.visits[i]? = some v → v.errand = .get t →
    v = .look t ∨ ∃ k, v = .left (.get t) (.ok k) ∧ s.Registered t k

private theorem Late.come {n : Nat} (h : s.Late n t) (e : Errand) : (s.come e).Late n t := by
  intro i v hi hv herrand
  rcases Nat.lt_or_ge i s.visits.length with hlt | hge
  · have hold : s.visits[i]? = some v := (List.getElem?_append_left hlt).symm.trans hv
    refine (h i v hi hold herrand).imp_right fun ⟨k, hk, hr⟩ => ?_
    exact ⟨k, hk, registered_move (.come e) hr⟩
  · have hnew : v = e.start := by
      have hv' : (s.visits ++ [e.start])[i]? = some v := hv
      rw [List.getElem?_append_right hge] at hv'
      exact List.mem_singleton.mp (List.mem_of_getElem? hv')
    subst hnew
    cases e with
    | get u => cases herrand; exact .inl rfl
    | register u options => cases herrand

private theorem Late.turn {n : Nat} (h : s.Late n t) (hs : s.Sound t) {k : Copy} (hk : s.Registered t k)
    (schema : Schema) (m : Nat) : (s.turn schema m).Late n t := by
  intro i w hi hw herrand
  have hkeep {k : Copy} (hk : s.Registered t k) : (s.turn schema m).Registered t k :=
    registered_move (.turn schema m) hk
  cases hv : s.visits[m]? with
  | none =>
    rw [turn_of_none hv] at hw ⊢
    exact h i w hi hw herrand
  | some v =>
    by_cases him : i = m
    · subst him
      have hlt : i < s.visits.length := (List.getElem?_eq_some_iff.mp hv).1
      have hw' : w = (v.turn schema i s.cache).visit := by
        rw [turn_of_some hv] at hw
        simpa [hlt] using hw.symm
      have hget : v.errand = .get t := by
        rw [← (Visit.took_turn schema i s.cache v).errand_eq, ← hw', herrand]
      rcases h i v hi hv hget with rfl | ⟨k', rfl, hr⟩
      · obtain ⟨k', hk', hr⟩ := hs.registered k hk
        exact .inr ⟨k', by simp [hw', Visit.turn, hk'], hkeep hr⟩
      · exact .inr ⟨k', hw', hkeep hr⟩
    · have hold : s.visits[i]? = some w := by
        rw [turn_of_some hv] at hw
        simpa [List.getElem?_set, Ne.symm him] using hw
      refine (h i w hi hold herrand).imp_right fun hleft => ?_
      obtain ⟨k, hk, hr⟩ := hleft
      exact ⟨k, hk, hkeep hr⟩

/-- Whoever comes once a type is registered gets the copy of a registration. -/
theorem late_after (hs : s.Sound t) {k : Copy} (hk : s.Registered t k) (moves : List Move) :
    (s.after moves).Sound t ∧ (s.after moves).Registered t k ∧ (s.after moves).Late s.visits.length t := by
  have hnobody : s.Late s.visits.length t := fun i v hi hv =>
    absurd (List.getElem?_eq_some_iff.mp hv).1 (Nat.not_lt.mpr hi)
  refine after_induct (P := fun s' => s'.Sound t ∧ s'.Registered t k ∧ s'.Late s.visits.length t)
    (fun s' m ⟨hs', hk', hlate⟩ => ⟨hs'.move m, registered_move m hk', ?_⟩) ⟨hs, hk, hnobody⟩ moves
  cases m with
  | come e => exact hlate.come e
  | turn schema n => exact hlate.turn hs' hk' schema n

/-- Once a type is registered, only a registration replaces its entry. -/
theorem hand_of_replaced (hs : s.Sound t) {k : Copy} (hk : s.Registered t k) {schema : Schema} {n : Nat}
    (hne : (s.turn schema n).cache.kept? t ≠ s.cache.kept? t) :
    ∃ options m, s.visits[n]? = some (.hand t options m) := by
  obtain ⟨k', hk', -⟩ := hs.registered k hk
  rcases entry_turn (s := s) schema n t with ⟨he, -⟩ | ⟨he, -⟩ | ⟨hhand, -⟩
  · exact absurd he hne
  · rw [he] at hk'
    cases hk'
  · exact hhand

/-- A visit that ends in a failure has left all entries as they were. -/
theorem cache_of_failed {schema : Schema} {n : Nat} {v : Visit} (hv : s.visits[n]? = some v)
    {later : List Move} {error : Error}
    (h : ((s.turn schema n).after later).visits[n]? = some (.left v.errand (.error error))) :
    (s.turn schema n).cache = s.cache := by
  rcases (Visit.took_turn schema n s.cache v).cache_eq with hc | ⟨k, hleft, -⟩
  · rw [turn_of_some hv, hc]
  · -- Otherwise it has left with a copy, and keeps that whatever happens later.
    have hlt : n < s.visits.length := (List.getElem?_eq_some_iff.mp hv).1
    have hlast : (s.turn schema n).visits[n]? = some (.left v.errand (.ok k)) := by
      rw [turn_of_some hv, hleft]
      exact List.getElem?_set_self hlt
    have hstays := after_induct (P := fun s' => s'.visits[n]? = some (.left v.errand (.ok k)))
      (fun _ m h => left_stays m h) hlast later
    rw [h] at hstays
    cases hstays

/-- What callers can rely on for a type, whatever has happened: gets parse it at most once; until a
registration of it succeeds, all get one copy; from then on its entry is that of a registration, only
registrations replace it, and whoever comes later and asks for it gets the copy of one; callers with
other types, and callers that fail, leave its entry as it is. -/
theorem linear (moves : List Move) (t : TypeId) :
    let s := empty.after moves
    s.parses t ≤ 1 ∧
    ((∀ k, ¬s.Registered t k) → ∀ k k', s.Got t k → s.Got t k' → k = k' ∧ s.cache.kept? t = some k) ∧
    (∀ k, s.Registered t k → ∀ later,
      let s' := s.after later
      (∃ k', s'.cache.kept? t = some k' ∧ s'.Registered t k') ∧
      (∀ schema n, (s'.turn schema n).cache.kept? t ≠ s'.cache.kept? t →
        ∃ options m, s'.visits[n]? = some (.hand t options m)) ∧
      ∀ n r, s.visits.length ≤ n → s'.visits[n]? = some (.left (.get t) r) →
        ∃ k', r = .ok k' ∧ s'.Registered t k') ∧
    ∀ schema n v, s.visits[n]? = some v →
      (v.errand.type ≠ t → (s.turn schema n).cache.kept? t = s.cache.kept? t) ∧
      ∀ later error, ((s.turn schema n).after later).visits[n]? = some (.left v.errand (.error error)) →
        (s.turn schema n).cache = s.cache := by
  intro s
  have hsound : s.Sound t := sound_after moves t
  refine ⟨?_, fun hfree k k' hk hk' => ?_, fun k hk later => ?_,
    fun schema n v hv => ⟨kept?_turn_of_ne hv, fun later error => cache_of_failed hv⟩⟩
  · exact Nat.le_trans hsound.parses_le (by cases s.cache.kept? t <;> simp)
  · have hkept := hsound.shared hfree k hk
    exact ⟨Option.some.inj (hkept.symm.trans (hsound.shared hfree k' hk')), hkept⟩
  · obtain ⟨hsound', hregistered', hlate⟩ := late_after hsound hk later
    refine ⟨hsound'.registered k hregistered', fun schema n hne => ?_, fun n r hn hr => ?_⟩
    · exact hand_of_replaced hsound' hregistered' hne
    · rcases hlate n _ hn hr rfl with hlook | ⟨k', hleft, hk'⟩
      · cases hlook
      · cases hleft
        exact ⟨k', rfl, hk'⟩

/-- A registration overtakes two gets that have both missed the type: the one that fills the entry first
keeps its own copy, the other and all later ones get that of the registration. -/
theorem linear_overtaken :
    let t : TypeId := .named "Note"
    let schema : Schema := fun _ => .struct ⟨"Note", t, 0, some "note", []⟩
    let early : Copy := ⟨1, ⟨"note", t, []⟩⟩
    let late : Copy := ⟨2, ⟨"notes", t, []⟩⟩
    let register : Errand := .register t [.table "notes"]
    let moves : List Move := [.come (.get t), .come (.get t), .turn schema 0, .turn schema 1,
      .come register, .turn schema 2, .turn schema 1, .turn schema 2]
    let later : List Move := [.turn schema 0, .come (.get t), .turn schema 3]
    let s := empty.after moves
    let s' := s.after later
    s.visits = [.fill t, .left (.get t) (.ok early), .left register (.ok late)] ∧
      s'.visits = [.left (.get t) (.ok late), .left (.get t) (.ok early), .left register (.ok late),
        .left (.get t) (.ok late)] ∧
      s.parses t ≤ 1 ∧ ∃ k, Except.ok (ε := Error) late = .ok k ∧ s'.Registered t k := by
  intro t schema early late register moves later s s'
  have hs : s = ⟨⟨[(t, late)]⟩, [.fill t, .left (.get t) (.ok early), .left register (.ok late)],
      [(register, early.model), (.get t, early.model)]⟩ := rfl
  have hs' : s'.visits = [.left (.get t) (.ok late), .left (.get t) (.ok early), .left register (.ok late),
      .left (.get t) (.ok late)] := by
    show (s.after later).visits = _
    rw [hs]
    rfl
  have hregistered : s.Registered t late := ⟨[.table "notes"], by simp [hs, register]⟩
  have hlinear := linear moves t
  have hafter : s.visits.length ≤ 3 := by rw [hs]; decide
  have hlast : s'.visits[3]? = some (.left (.get t) (.ok late)) := by rw [hs']; rfl
  exact ⟨by rw [hs], hs', hlinear.1, (hlinear.2.2.1 late hregistered later).2.2 3 _ hafter hlast⟩

end Traffic

end EntitySql
