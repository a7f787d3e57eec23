import EntitySql.Model.Registry

namespace EntitySql

/-- Places by key; a key has one place at most. -/
structure Index where
  entries : List (String × Nat)
  deriving DecidableEq, Repr

namespace Index

def empty : Index := ⟨[]⟩

def get? (x : Index) (key : String) : Option Nat := x.entries.lookup key

def erase (x : Index) (key : String) : Index := ⟨x.entries.filter fun e => e.1 ≠ key⟩

/-- The index with a place for a key, instead of the one before. -/
def insert (x : Index) (key : String) (place : Nat) : Index := ⟨(key, place) :: (x.erase key).entries⟩

theorem get?_erase (x : Index) (key other : String) :
    (x.erase key).get? other = if other = key then none else x.get? other := by
  unfold erase get?
  induction x.entries with
  | nil => simp
  | cons e rest ih =>
    obtain ⟨k, place⟩ := e
    by_cases hk : k = key
    · subst hk
      by_cases ho : other = k
      · simpa [ho] using ih
      · have hb : (other == k) = false := by simpa using ho
        simpa [ho, List.lookup_cons, hb] using ih
    · by_cases ho : other = k
      · simp [hk, ho]
      · have hb : (other == k) = false := by simpa using ho
        simpa [hk, List.lookup_cons, hb] using ih

theorem get?_insert (x : Index) (key other : String) (place : Nat) :
    (x.insert key place).get? other = if other = key then some place else x.get? other := by
  have herase := x.get?_erase key other
  unfold get? at herase
  by_cases ho : other = key
  · simp [insert, get?, ho]
  · have hb : (other == key) = false := by simpa using ho
    simpa [insert, get?, ho, List.lookup_cons, hb] using herase

end Index

/-- A model with the places of its fields by name and by column, as it is kept in memory. -/
structure IndexedModel where
  table : String
  entity : TypeId
  fields : List Field
  byField : Index
  byColumn : Index
  deriving DecidableEq, Repr

namespace IndexedModel

def plain (m : IndexedModel) : Model := ⟨m.table, m.entity, m.fields⟩

def field? (m : IndexedModel) (name : String) : Option Field := m.byField.get? name >>= (m.fields[·]?)

def column? (m : IndexedModel) (column : String) : Option Field := m.byColumn.get? column >>= (m.fields[·]?)

def requireField (m : IndexedModel) (name : String) : Except Error Field :=
  match m.field? name with
  | some f => .ok f
  | none => .error (.invalidField name)

def push (m : IndexedModel) (f : Field) : IndexedModel :=
  { m with
    fields := m.fields ++ [f]
    byField := m.byField.insert f.name m.fields.length
    byColumn := m.byColumn.insert f.column m.fields.length }

/-- The model with declared fields after its own. A field has to lie within the struct and to have a column
of its own. -/
def pushAll (size : Nat) (m : IndexedModel) : List FieldInfo → Except Error IndexedModel
  | [] => .ok m
  | info :: rest =>
    if size < info.offset + info.size then .error .invalidModelType
    else match Model.columnOf info with
      | .error e => .error e
      | .ok column =>
        match m.column? column with
        | some other => .error (.invalidTag (Model.clash column other.name info.name))
        | none => (m.push ⟨info.name, column, info.offset, info.size, info.raw, m.fields.length⟩).pushAll size rest

def ofStruct (info : StructInfo) : Except Error IndexedModel :=
  pushAll info.size ⟨info.table.getD (Text.snakeCaseName info.name), info.id, [], .empty, .empty⟩ info.fields

/-- The model that metadata describes: that of a struct or of a single pointer to one. -/
def parse : TypeInfo → Except Error IndexedModel
  | .struct info => ofStruct info
  | .pointer (.struct info) => ofStruct info
  | _ => .error .invalidModelType

def ofModel (m : Model) : IndexedModel := m.fields.foldl push ⟨m.table, m.entity, [], .empty, .empty⟩

def rename (m : IndexedModel) (place : Nat) (column : String) : IndexedModel :=
  match m.fields[place]? with
  | none => m
  | some f =>
    { m with
      fields := m.fields.set place { f with column }
      byColumn := (m.byColumn.erase f.column).insert column place }

def apply (m : IndexedModel) : ModelOption → Except Error Unit × IndexedModel
  | .table name =>
    if name.isEmpty then (.error (.invalidModelOption "table name must not be empty"), m)
    else (.ok (), { m with table := name })
  | .column field column =>
    if column.isEmpty then
      (.error (.invalidModelOption ("column name for field " ++ field ++ " must not be empty")), m)
    else match m.byField.get? field with
      | none => (.error (.invalidField field), m)
      | some place =>
        match m.byColumn.get? column with
        | none => (.ok (), m.rename place column)
        | some other =>
          if other = place then (.ok (), m.rename place column)
          else
            let mapped := (m.fields[other]?.map Field.name).getD ""
            (.error (.invalidModelOption (Model.clash column mapped field)), m)

/-- The model after options in order, also past those that fail. -/
def run (m : IndexedModel) (options : List ModelOption) : IndexedModel :=
  options.foldl (fun m option => (m.apply option).2) m

end IndexedModel

/-- The model of a type in memory: the one kept, else the one that would be parsed. -/
def Registry.indexed (r : Registry) (schema : Schema) (t : TypeId) : Except Error IndexedModel :=
  match r.cached? t with
  | some m => .ok (.ofModel m)
  | none =>
    match schema.report t with
    | .struct info => if info.id = t then IndexedModel.ofStruct info else .error .invalidModelType
    | info => IndexedModel.parse info

end EntitySql
