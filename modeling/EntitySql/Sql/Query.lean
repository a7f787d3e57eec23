import EntitySql.Sql.Resolution

namespace EntitySql.Sql

open Emission

variable (lookup : TypeId → Except Error Model)

def writeResolved : Resolution.Resolved → Emission Unit
  | (some qualifier, column) => do
    name qualifier
    text "."
    name column
  | (none, column) => name column

def writeAlias : Option String → Emission Unit
  | some aliasName => do
    text " AS "
    name aliasName
  | none => pure ()

/-- A column without a source belongs to the source of the innermost query around it. -/
def emitColumn (scope : Option TableRef) (c : Column) : Emission Unit := do
  writeResolved (← Resolution.ofColumn lookup scope c)

def emitAggregate (scope : Option TableRef) (a : Aggregate) : Emission Unit := do
  text (a.func.sql ++ "(")
  emitColumn lookup scope a.column
  text ")"

def emitTable (t : Table) : Emission Unit := do
  let m ← Emission.model lookup t.entity
  name m.table
  writeAlias t.aliasName

/-- A predicate as an operand stands in parentheses, so that no precedence is needed to read it; a
quantified subquery brings its own. -/
def asOperand (p : Predicate) (body : Emission Unit) : Emission Unit :=
  if p.isQuantified then body else bracketed body

def emitOrderItem (scope : Option TableRef) (o : OrderItem) : Emission Unit := do
  emitColumn lookup scope o.column
  text (if o.descending then " DESC" else " ASC")

def emitClause {α : Type} (keyword : String) (each : α → Emission Unit) (items : List α) : Emission Unit :=
  match items with
  | [] => pure ()
  | items => do
    text keyword
    separated each items

def emitBound (keyword : String) : Option (Integer .u64) → Emission Unit
  | some n => do
    text keyword
    bound (.uint n)
  | none => pure ()

mutual

def emitOperand (scope : Option TableRef) : Expr → Emission Unit
  | .column c => emitColumn lookup scope c
  | .value v => bound v
  | .predicate p => asOperand p (emitPredicate scope p)
  | .aggregate a => emitAggregate lookup scope a
  | .raw r => raw r
  | .subquery s => emitSubQuery s
  | .list items => do
    text "("
    emitItems scope items
    text ")"
termination_by structural x => x

def emitItems (scope : Option TableRef) : List Expr → Emission Unit
  | [] => pure ()
  | [e] => emitOperand scope e
  | e :: next :: rest => do
    emitOperand scope e
    text ", "
    emitItems scope (next :: rest)
termination_by structural x => x

def emitPredicate (scope : Option TableRef) : Predicate → Emission Unit
  | .binary left op right => do
    emitOperand scope left
    text (" " ++ op.sql ++ " ")
    emitOperand scope right
  | .prefixed op operand => do
    text (op.sql ++ " ")
    emitOperand scope operand
  | .raw r => raw r
termination_by structural x => x

/-- The rest of a conjunction of which the first member is written. -/
def emitConjunction (scope : Option TableRef) : List Predicate → Emission Unit
  | [] => pure ()
  | [p] => do
    text " AND "
    asOperand p (emitPredicate scope p)
  | p :: next :: rest => do
    text " AND "
    asOperand p (emitPredicate scope p)
    text ")"
    emitConjunction scope (next :: rest)
termination_by structural x => x

/-- Predicates that all have to hold, after a keyword: their conjunction, nested to the left. -/
def emitConditions (scope : Option TableRef) (keyword : String) : List Predicate → Emission Unit
  | [] => pure ()
  | [p] => do
    text (" " ++ keyword ++ " ")
    emitPredicate scope p
  | p :: next :: rest => do
    text (" " ++ keyword ++ " " ++ String.ofList (List.replicate rest.length '('))
    asOperand p (emitPredicate scope p)
    emitConjunction scope (next :: rest)
termination_by structural x => x

def emitSelectable (scope : Option TableRef) : Selectable → Emission Unit
  | .column c => do
    emitColumn lookup scope c
    writeAlias c.aliasName
  | .aggregate a => do
    emitAggregate lookup scope a
    writeAlias a.aliasName
  | .raw r => raw r
  | .subquery ⟨query, aliasName⟩ => do
    bracketed (emitQuery query)
    writeAlias aliasName
termination_by structural x => x

def emitSelectList (scope : Option TableRef) : List Selectable → Emission Unit
  | [] => text "*"
  | [item] => emitSelectable scope item
  | item :: next :: rest => do
    emitSelectable scope item
    text ", "
    emitSelectList scope (next :: rest)
termination_by structural x => x

def emitSource (scope : Option TableRef) : TableRef → Emission Unit
  | .table t => emitTable lookup t
  | .join kind left right (.on conditions) => do
    emitSource scope left
    text (" " ++ kind.sql ++ " ")
    emitSource scope right
    emitConditions scope "ON" conditions
  | .join kind left right (.using fields) => do
    emitSource scope left
    text (" " ++ kind.sql ++ " ")
    emitSource scope right
    text " USING ("
    separated
      (fun field => do
        let (_, column) ← Resolution.resolve lookup field (.join kind left right (.using fields))
        name column)
      fields
    text ")"
  | .subquery ⟨query, aliasName⟩ => do
    bracketed (emitQuery query)
    writeAlias aliasName
termination_by structural x => x

def emitSubQuery : SubQuery → Emission Unit
  | ⟨query, _⟩ => bracketed (emitQuery query)
termination_by structural x => x

def emitQuery : Query → Emission Unit
  | ⟨source, columns, distinct, conditions, groupBy, having, orderBy, limit, offset⟩ =>
    if !having.isEmpty && groupBy.isEmpty then fail .havingWithoutGroupBy
    else do
      let scope := some source
      text (if distinct then "SELECT DISTINCT " else "SELECT ")
      emitSelectList scope columns
      text " FROM "
      emitSource scope source
      emitConditions scope "WHERE" conditions
      emitClause " GROUP BY " (emitColumn lookup scope) groupBy
      emitConditions scope "HAVING" having
      emitClause " ORDER BY " (emitOrderItem lookup scope) orderBy
      emitBound " LIMIT " limit
      emitBound " OFFSET " offset
termination_by structural x => x

end

/-- An expression outside of operand position, where a predicate stands without parentheses. -/
def emitExpr (scope : Option TableRef) : Expr → Emission Unit
  | .predicate p => emitPredicate lookup scope p
  | e => emitOperand lookup scope e

end EntitySql.Sql
