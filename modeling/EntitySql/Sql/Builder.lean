import EntitySql.Model.Registry
import EntitySql.Sql.Dialect

namespace EntitySql

/-- A statement under construction. What a walk has written stays when the walk fails. -/
structure Builder where
  dialect : Dialect
  registry : Registry
  sql : String
  args : List Value
  scope : Option TableRef

abbrev Build := ExceptT Error (StateM Builder)

def Build.run {α : Type} (walk : Build α) (b : Builder) : Except Error α × Builder :=
  StateT.run (ExceptT.run walk) b

namespace Builder

def empty (registry : Registry) (dialect : Dialect) : Builder := ⟨dialect, registry, "", [], none⟩

def argCount (b : Builder) : Nat := b.args.length

def setScope (b : Builder) (scope : Option TableRef) : Option TableRef × Builder :=
  (b.scope, { b with scope })

def finish (b : Builder) : Statement := ⟨b.sql ++ ";", b.args⟩

def write (s : String) : Build Unit := modify fun b => { b with sql := b.sql ++ s }

def writeName (name : String) : Build Unit := do write ((← get).dialect.spelling.name name)

/-- An argument and its placeholder, which may bear the number of arguments so far. -/
def bindValue (v : Value) : Build Unit := do
  modify fun b => { b with args := b.args ++ [v] }
  let b ← get
  write (b.dialect.spelling.placeholder b.argCount)

def writeRaw (r : RawSql) : Build Unit := do
  write r.sql
  modify fun b => { b with args := b.args ++ r.args }

def bracketed (walk : Build Unit) : Build Unit := do
  write "("
  walk
  write ")"

def separated {α : Type} (each : α → Build Unit) : List α → Build Unit
  | [] => pure ()
  | [a] => each a
  | a :: next :: rest => do
    each a
    write ", "
    separated each (next :: rest)

/-- A walk with another source in scope. Whatever its outcome, the one before is in scope again. -/
def within (source : TableRef) (walk : Build Unit) : Build Unit := ExceptT.mk do
  let outer ← modifyGet (setScope · (some source))
  let result ← ExceptT.run walk
  modify fun b => (b.setScope outer).2
  return result

def writeAlias : Option String → Build Unit
  | some aliasName => do
    write " AS "
    writeName aliasName
  | none => pure ()

def writeBound (keyword : String) : Option (Integer .u64) → Build Unit
  | some n => do
    write keyword
    bindValue (.uint n)
  | none => pure ()

def writeClause {α : Type} (keyword : String) (each : α → Build Unit) (items : List α) : Build Unit :=
  if items.isEmpty then pure ()
  else do
    write keyword
    separated each items

def asOperand (quantified : Bool) (walk : Build Unit) : Build Unit :=
  if quantified then walk else bracketed walk

variable (schema : Schema)

/-- What an emission comes to in a builder: its outcome, and the builder with its pieces behind what was
written and the types kept that it asked for. -/
def put {α : Type} (b : Builder) (e : Emission α) : Except Error α × Builder :=
  (e.outcome,
    { b with
      registry := b.registry.consultAll schema e.consulted
      sql := b.sql ++ b.dialect.spelling.text b.argCount e.pieces
      args := b.args ++ argsOf e.pieces })

def tableModel (t : Table) : Build Model := do
  let r := (← get).registry
  modify fun b => { b with registry := r.consult schema t.entity }
  ofExcept (r.view schema t.entity)

mutual

def resolve (field : String) : TableRef → Build (Option String × String)
  | .table t => do
    let m ← tableModel schema t
    let f ← ofExcept (m.requireField field)
    return (t.aliasName, f.column)
  | .join _ left right _ =>
    tryCatch (resolve field left) fun
      | .invalidField _ => resolve field right
      | err => throw err
  | .subquery ⟨query, aliasName⟩ => do
    let column ← exposed field query
    return (aliasName, column)
termination_by structural x => x

def exposed (field : String) : Query → Build String
  | ⟨source, columns, _, _, _, _, _, _, _⟩ =>
    if columns.isEmpty then (·.2) <$> resolve field source
    else if columns.any (fun item => item.aliasName == some field) then pure field
    else exposedItem field ((·.2) <$> resolve field source) columns
termination_by structural x => x

/-- The column of the first item for a field that has no alias. -/
def exposedItem (field : String) (inSource : Build String) : List Selectable → Build String
  | [] => throw (.invalidField field)
  | .column ⟨none, f, none⟩ :: rest => if f = field then inSource else exposedItem field inSource rest
  | .column ⟨some source, f, none⟩ :: rest =>
    if f = field then (·.2) <$> resolve field source else exposedItem field inSource rest
  | .column ⟨_, _, some _⟩ :: rest => exposedItem field inSource rest
  | .aggregate _ :: rest => exposedItem field inSource rest
  | .raw _ :: rest => exposedItem field inSource rest
  | .subquery _ :: rest => exposedItem field inSource rest
termination_by structural x => x

end

/-- The qualifier and column of a column reference, in the source it names or else in scope. -/
def resolveColumn (c : Column) : Build (Option String × String) := do
  match c.source, (← get).scope with
  | some source, _ => resolve schema c.field source
  | none, some scope => resolve schema c.field scope
  | none, none => throw (.invalidField c.field)

def writeResolved : Option String × String → Build Unit
  | (some qualifier, column) => do
    writeName qualifier
    write "."
    writeName column
  | (none, column) => writeName column

/-- A column reference, with its alias in a select list. -/
def writeColumn (c : Column) (aliased : Bool) : Build Unit := do
  writeResolved (← resolveColumn schema c)
  if aliased then writeAlias c.aliasName

def writeAggregate (a : Aggregate) (aliased : Bool) : Build Unit := do
  write a.func.sql
  write "("
  writeColumn schema a.column false
  write ")"
  if aliased then writeAlias a.aliasName

def writeOrderItem (o : OrderItem) : Build Unit := do
  writeColumn schema o.column false
  write (if o.descending then " DESC" else " ASC")

mutual

def writeOperand : Expr → Build Unit
  | .column c => writeColumn schema c false
  | .value v => bindValue v
  | .predicate p => asOperand p.isQuantified (writePredicate p)
  | .aggregate a => writeAggregate schema a false
  | .raw r => writeRaw r
  | .subquery s => writeSubQuery false s
  | .list items => bracketed (writeItems items)
termination_by structural x => x

def writeItems : List Expr → Build Unit
  | [] => pure ()
  | [e] => writeOperand e
  | e :: next :: rest => do
    writeOperand e
    write ", "
    writeItems (next :: rest)
termination_by structural x => x

def writePredicate : Predicate → Build Unit
  | .binary left op right => do
    writeOperand left
    write " "
    write op.sql
    write " "
    writeOperand right
  | .prefixed op operand => do
    write op.sql
    write " "
    writeOperand operand
  | .raw r => writeRaw r
termination_by structural x => x

/-- The conjunction of a predicate, given what it is written as, with further ones. -/
def writeConjunction (quantified : Bool) (first : Build Unit) : List Predicate → Build Unit
  | [] => first
  | p :: rest =>
    writeConjunction false
      (do
        asOperand quantified first
        write " "
        write BinaryOp.and.sql
        write " "
        asOperand p.isQuantified (writePredicate p))
      rest
termination_by structural x => x

def writeConditions (keyword : String) : List Predicate → Build Unit
  | [] => pure ()
  | p :: rest => do
    write " "
    write keyword
    write " "
    writeConjunction p.isQuantified (writePredicate p) rest
termination_by structural x => x

def writeSelectable : Selectable → Build Unit
  | .column c => writeColumn schema c true
  | .aggregate a => writeAggregate schema a true
  | .raw r => writeRaw r
  | .subquery s => writeSubQuery true s
termination_by structural x => x

def writeSelectList : List Selectable → Build Unit
  | [] => write "*"
  | [item] => writeSelectable item
  | item :: next :: rest => do
    writeSelectable item
    write ", "
    writeSelectList (next :: rest)
termination_by structural x => x

def writeSource : TableRef → Build Unit
  | .table t => do
    let m ← tableModel schema t
    writeName m.table
    writeAlias t.aliasName
  | .join kind left right (.on conditions) => do
    writeSource left
    write " "
    write kind.sql
    write " "
    writeSource right
    writeConditions "ON" conditions
  | .join kind left right (.using fields) => do
    writeSource left
    write " "
    write kind.sql
    write " "
    writeSource right
    write " USING ("
    separated
      (fun field => do
        let (_, column) ← resolve schema field (.join kind left right (.using fields))
        writeName column)
      fields
    write ")"
  | .subquery s => writeSubQuery true s
termination_by structural x => x

/-- A subquery, with its alias where it is an item or a source. -/
def writeSubQuery (aliased : Bool) : SubQuery → Build Unit
  | ⟨query, aliasName⟩ => do
    bracketed (writeQuery query)
    if aliased then writeAlias aliasName
termination_by structural x => x

def writeQuery : Query → Build Unit
  | ⟨source, columns, distinct, conditions, groupBy, having, orderBy, limit, offset⟩ =>
    if !having.isEmpty && groupBy.isEmpty then throw .havingWithoutGroupBy
    else within source do
      write "SELECT "
      if distinct then write "DISTINCT "
      writeSelectList columns
      write " FROM "
      writeSource source
      writeConditions "WHERE" conditions
      writeClause " GROUP BY " (writeColumn schema · false) groupBy
      writeConditions "HAVING" having
      writeClause " ORDER BY " (writeOrderItem schema) orderBy
      writeBound " LIMIT " limit
      writeBound " OFFSET " offset
termination_by structural x => x

end

/-- An expression outside of operand position, where a predicate stands without parentheses. -/
def writeExpr : Expr → Build Unit
  | .predicate p => writePredicate schema p
  | e => writeOperand schema e

/-- The walks that callers of a builder may ask for. -/
inductive Call where
  | expr (e : Expr)
  | operand (e : Expr)
  | predicate (p : Predicate)
  | conditions (keyword : String) (ps : List Predicate)
  | column (c : Column) (aliased : Bool)
  | source (t : TableRef)
  | query (q : Query)

def Call.walk : Call → Build Unit
  | expr e => writeExpr schema e
  | operand e => writeOperand schema e
  | predicate p => writePredicate schema p
  | conditions keyword ps => writeConditions schema keyword ps
  | column c aliased => writeColumn schema c aliased
  | source t => writeSource schema t
  | query q => writeQuery schema q

end Builder

end EntitySql
