import EntitySql.Sql.Emission

namespace EntitySql.Resolution

variable (lookup : TypeId → Except Error Model)

/-- A column with the qualifier that stands before it, if any. -/
abbrev Resolved := Option String × String

def inTable (t : Table) (field : String) : Emission Resolved := do
  let m ← Emission.model lookup t.entity
  let f ← Emission.ofExcept (m.requireField field)
  return (t.aliasName, f.column)

mutual

/-- The qualifier and column of a field in a source. A join answers by the leftmost side that knows the
field; a subquery answers with what its select list exposes. -/
def resolve (field : String) : TableRef → Emission Resolved
  | .table t => inTable lookup t field
  | .join _ left right _ => (resolve field left).orElseField fun _ => resolve field right
  | .subquery ⟨query, aliasName⟩ => do
    let column ← exposed field query
    return (aliasName, column)

/-- The column under which a query exposes a field: one of its source if all are selected, else an
alias, else the column of an item without an alias. -/
def exposed (field : String) : Query → Emission String
  | ⟨source, columns, _, _, _, _, _, _, _⟩ =>
    if columns.isEmpty then (·.2) <$> resolve field source
    else if columns.any (fun item => item.aliasName == some field) then pure field
    else exposedItem field (fun _ => (·.2) <$> resolve field source) columns

/-- The column of the first item for a field that has no alias. -/
def exposedItem (field : String) (inSource : Unit → Emission String) : List Selectable → Emission String
  | [] => .fail (.invalidField field)
  | .column ⟨none, f, none⟩ :: rest => if f = field then inSource () else exposedItem field inSource rest
  | .column ⟨some source, f, none⟩ :: rest =>
    if f = field then (·.2) <$> resolve field source else exposedItem field inSource rest
  | .column ⟨_, _, some _⟩ :: rest => exposedItem field inSource rest
  | .aggregate _ :: rest => exposedItem field inSource rest
  | .raw _ :: rest => exposedItem field inSource rest
  | .subquery _ :: rest => exposedItem field inSource rest

end

/-- The qualifier and column of a column reference, in the source it names or else in scope. -/
def ofColumn (scope : Option TableRef) (c : Column) : Emission Resolved :=
  match c.source, scope with
  | some source, _ => resolve lookup c.field source
  | none, some scope => resolve lookup c.field scope
  | none, none => .fail (.invalidField c.field)

end EntitySql.Resolution
