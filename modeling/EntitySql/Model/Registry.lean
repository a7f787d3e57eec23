import EntitySql.Model.Basic

namespace EntitySql

/-- The model that the metadata of a type describes. A struct has to report the type itself. -/
def Schema.parse (schema : Schema) (t : TypeId) : Except Error Model :=
  match schema.report t with
  | .struct info => if info.id = t then Model.ofStruct info else .error .invalidModelType
  | info => Model.parse info

/-- The models in use, the latest first. -/
structure Registry where
  entries : List (TypeId × Model)
  deriving DecidableEq, Repr

namespace Registry

def empty : Registry := ⟨[]⟩

instance : Inhabited Registry := ⟨empty⟩

def cached? (r : Registry) (t : TypeId) : Option Model := r.entries.lookup t

def size (r : Registry) : Nat := r.entries.length

/-- The registry with a model for a type, in place of the one before. -/
def insert (r : Registry) (t : TypeId) (m : Model) : Registry :=
  ⟨(t, m) :: r.entries.filter fun e => e.1 ≠ t⟩

/-- The model of a type as any caller sees it: the one kept, else the one that would be parsed. -/
def view (r : Registry) (schema : Schema) (t : TypeId) : Except Error Model :=
  match r.cached? t with
  | some m => .ok m
  | none => schema.parse t

def consult (r : Registry) (schema : Schema) (t : TypeId) : Registry :=
  match r.cached? t with
  | some _ => r
  | none =>
    match schema.parse t with
    | .ok m => r.insert t m
    | .error _ => r

def consultAll (r : Registry) (schema : Schema) (ts : List TypeId) : Registry :=
  ts.foldl (fun r t => r.consult schema t) r

/-- The models that are parsed while types are asked for in order. -/
def parsedBy (r : Registry) (schema : Schema) : List TypeId → List Model
  | [] => []
  | t :: rest =>
    match r.cached? t, schema.parse t with
    | none, .ok m => m :: (r.insert t m).parsedBy schema rest
    | _, _ => r.parsedBy schema rest

def registered (schema : Schema) (t : TypeId) (options : List ModelOption) : Except Error Model :=
  match schema.parse t with
  | .error e => .error e
  | .ok m => m.applyAll options

def register (r : Registry) (schema : Schema) (t : TypeId) (options : List ModelOption) : Registry :=
  match registered schema t options with
  | .ok m => r.insert t m
  | .error _ => r

/-- What is kept for a type once an entry has taken the place of those before it. -/
theorem lookup_replaced {α : Type} (entries : List (TypeId × α)) (t u : TypeId) (a : α) :
    ((t, a) :: entries.filter fun e => e.1 ≠ t).lookup u = if u = t then some a else entries.lookup u := by
  by_cases h : u = t
  · subst h; simp
  · have hb : (u == t) = false := by simpa using h
    simp only [List.lookup_cons, hb, h, if_false]
    induction entries with
    | nil => rfl
    | cons e rest ih =>
      obtain ⟨k, v⟩ := e
      by_cases hk : k = t
      · subst hk
        simpa [List.lookup_cons, hb] using ih
      · by_cases hu : u = k
        · subst hu; simp [hk]
        · have hub : (u == k) = false := by simpa using hu
          simpa [List.lookup_cons, hk, hub] using ih

theorem cached?_insert (r : Registry) (t u : TypeId) (m : Model) :
    (r.insert t m).cached? u = if u = t then some m else r.cached? u :=
  lookup_replaced r.entries t u m

theorem view_consult (r : Registry) (schema : Schema) (t u : TypeId) :
    (r.consult schema t).view schema u = r.view schema u := by
  unfold consult
  split
  · rfl
  · rename_i h
    split
    · rename_i m hm
      unfold view
      rw [cached?_insert]
      by_cases hu : u = t
      · subst hu; simp [h, hm]
      · simp [hu]
    · rfl

theorem view_consultAll (r : Registry) (schema : Schema) (ts : List TypeId) (u : TypeId) :
    (r.consultAll schema ts).view schema u = r.view schema u := by
  induction ts generalizing r with
  | nil => rfl
  | cons t rest ih =>
    show ((r.consult schema t).consultAll schema rest).view schema u = _
    rw [ih, view_consult]

end Registry

end EntitySql
