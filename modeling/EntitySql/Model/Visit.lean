import EntitySql.Model.Registry

namespace EntitySql

/-- A model in memory, with the number of the visit that made it. -/
structure Copy where
  maker : Nat
  model : Model
  deriving DecidableEq, Repr

/-- A registry in memory: the copies in use, the latest first. -/
structure Cache where
  entries : List (TypeId × Copy)
  deriving DecidableEq, Repr

/-- What a caller comes for. -/
inductive Errand where
  | get (t : TypeId)
  | register (t : TypeId) (options : List ModelOption)
  deriving DecidableEq, Repr

def Errand.type : Errand → TypeId
  | get t | register t _ => t

/-- A caller, as far as it has got. -/
inductive Visit where
  | look (t : TypeId)
  /-- Waiting to have the registry to itself, since the look-up missed. -/
  | fill (t : TypeId)
  | make (t : TypeId) (options : List ModelOption)
  /-- Waiting to have the registry to itself, with the model to be kept. -/
  | hand (t : TypeId) (options : List ModelOption) (m : Model)
  | left (errand : Errand) (result : Except Error Copy)

/-- What one turn of a visit leaves. -/
structure Turn where
  visit : Visit
  cache : Cache
  parsed : Option Model

namespace Cache

def empty : Cache := ⟨[]⟩

def kept? (c : Cache) (t : TypeId) : Option Copy := c.entries.lookup t

def size (c : Cache) : Nat := c.entries.length

/-- The cache with a copy for a type, in place of the one before. -/
def keep (c : Cache) (t : TypeId) (k : Copy) : Cache := ⟨(t, k) :: c.entries.filter fun e => e.1 ≠ t⟩

def plain (c : Cache) : Registry := ⟨c.entries.map fun e => (e.1, e.2.model)⟩

theorem kept?_keep (c : Cache) (t u : TypeId) (k : Copy) :
    (c.keep t k).kept? u = if u = t then some k else c.kept? u :=
  Registry.lookup_replaced c.entries t u k

@[simp] theorem kept?_keep_self (c : Cache) (t : TypeId) (k : Copy) : (c.keep t k).kept? t = some k := by
  simp [kept?_keep]

theorem kept?_keep_of_ne {c : Cache} {t u : TypeId} {k : Copy} (h : u ≠ t) :
    (c.keep t k).kept? u = c.kept? u := by
  simp [kept?_keep, h]

@[simp] theorem plain_keep (c : Cache) (t : TypeId) (k : Copy) :
    (c.keep t k).plain = c.plain.insert t k.model := by
  simp [keep, plain, Registry.insert, List.filter_map, Function.comp_def]

theorem cached?_plain (c : Cache) (t : TypeId) : c.plain.cached? t = (c.kept? t).map (·.model) := by
  unfold plain Registry.cached? kept?
  induction c.entries with
  | nil => rfl
  | cons e rest ih =>
    obtain ⟨u, k⟩ := e
    simp only [List.map_cons, List.lookup_cons]
    cases t == u with
    | true => rfl
    | false => exact ih

end Cache

def Errand.start : Errand → Visit
  | get t => .look t
  | register t options => .make t options

namespace Visit

def errand : Visit → Errand
  | look t | fill t => .get t
  | make t options | hand t options _ => .register t options
  | left errand _ => errand

def result? : Visit → Option (Except Error Copy)
  | left _ result => some result
  | _ => none

def turn (schema : Schema) (n : Nat) (c : Cache) : Visit → Turn
  | look t =>
    match c.kept? t with
    | some k => ⟨left (.get t) (.ok k), c, none⟩
    | none => ⟨fill t, c, none⟩
  | fill t =>
    match c.kept? t with
    | some k => ⟨left (.get t) (.ok k), c, none⟩
    | none =>
      match schema.parse t with
      | .error e => ⟨left (.get t) (.error e), c, none⟩
      | .ok m => ⟨left (.get t) (.ok ⟨n, m⟩), c.keep t ⟨n, m⟩, some m⟩
  | make t options =>
    match schema.parse t with
    | .error e => ⟨left (.register t options) (.error e), c, none⟩
    | .ok m =>
      match m.applyAll options with
      | .error e => ⟨left (.register t options) (.error e), c, some m⟩
      | .ok made => ⟨hand t options made, c, some m⟩
  | hand t options m => ⟨left (.register t options) (.ok ⟨n, m⟩), c.keep t ⟨n, m⟩, none⟩
  | left errand result => ⟨left errand result, c, none⟩

end Visit

def Errand.run (schema : Schema) (n : Nat) (c : Cache) (e : Errand) : Turn :=
  let first := e.start.turn schema n c
  let second := first.visit.turn schema n first.cache
  ⟨second.visit, second.cache, first.parsed.or second.parsed⟩

/-- Asked for alone, a type has the model that the registry shows, is parsed just if none was kept, and
is kept then. -/
theorem Errand.run_get (schema : Schema) (n : Nat) (c : Cache) (t : TypeId) :
    let after := (get t).run schema n c
    after.visit.result?.map (·.map (·.model)) = some (c.plain.view schema t) ∧
      after.cache.plain = c.plain.consult schema t ∧
      after.parsed.toList = c.plain.parsedBy schema [t] := by
  have hcached := c.cached?_plain t
  cases hk : c.kept? t with
  | some k =>
    simp [run, start, Visit.turn, Visit.result?, hk, hcached, Registry.view, Registry.consult,
      Registry.parsedBy, Except.map]
  | none =>
    cases hm : schema.parse t <;>
      simp [run, start, Visit.turn, Visit.result?, hk, hm, hcached, Registry.view, Registry.consult,
        Registry.parsedBy, Except.map]

/-- A registration alone: its type is parsed at once, and kept if the options can be applied. -/
theorem Errand.run_register (schema : Schema) (n : Nat) (c : Cache) (t : TypeId)
    (options : List ModelOption) :
    let after := (register t options).run schema n c
    after.visit.result?.map (·.map (·.model)) = some (Registry.registered schema t options) ∧
      after.cache.plain = c.plain.register schema t options ∧
      after.parsed = (schema.parse t).toOption := by
  cases hm : schema.parse t with
  | error e =>
    simp [run, start, Visit.turn, Visit.result?, hm, Registry.registered, Registry.register, Except.map,
      Except.toOption]
  | ok m =>
    cases ha : m.applyAll options <;>
      simp [run, start, Visit.turn, Visit.result?, hm, ha, Registry.registered, Registry.register,
        Except.map, Except.toOption]

end EntitySql
