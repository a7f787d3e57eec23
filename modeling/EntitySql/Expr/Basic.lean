import EntitySql.Model.Metadata
import EntitySql.Value.FieldType

namespace EntitySql

inductive AggregateFunction where
  | count | sum | avg | max | min
  deriving DecidableEq, Repr

def AggregateFunction.sql : AggregateFunction → String
  | count => "COUNT"
  | sum => "SUM"
  | avg => "AVG"
  | max => "MAX"
  | min => "MIN"

/-- Operators between two operands. -/
inductive BinaryOp where
  | eq | ne | gt | ge | lt | le | like | and | or | isIn
  deriving DecidableEq, Repr

def BinaryOp.sql : BinaryOp → String
  | eq => "="
  | ne => "!="
  | gt => ">"
  | ge => ">="
  | lt => "<"
  | le => "<="
  | like => "LIKE"
  | and => "AND"
  | or => "OR"
  | isIn => "IN"

/-- Operators before one operand. -/
inductive PrefixOp where
  | not | existsRow | notExistsRow | any | all | some
  deriving DecidableEq, Repr

namespace PrefixOp

def sql : PrefixOp → String
  | not => "NOT"
  | existsRow => "EXISTS"
  | notExistsRow => "NOT EXISTS"
  | any => "ANY"
  | all => "ALL"
  | some => "SOME"

/-- Operators that qualify a subquery as the operand of a comparison. -/
def isQuantifier : PrefixOp → Bool
  | any | all | some => true
  | not | existsRow | notExistsRow => false

end PrefixOp

inductive JoinKind where
  | inner | left | right
  deriving DecidableEq, Repr

def JoinKind.sql : JoinKind → String
  | inner => "INNER JOIN"
  | left => "LEFT JOIN"
  | right => "RIGHT JOIN"

/-- A fragment of SQL that stands as it is, with the arguments of its own placeholders. -/
structure RawSql where
  sql : String
  args : List Value := []
  deriving DecidableEq, Repr

/-- The table of an entity type, under an alias if one is given. -/
structure Table where
  entity : TypeId
  aliasName : Option String := none
  deriving DecidableEq, Repr

mutual

/-- A field of a source; of the source in scope if none is named. The alias is for select lists. -/
structure Column where
  source : Option TableRef
  field : String
  aliasName : Option String

/-- An aggregate function of a column. -/
structure Aggregate where
  func : AggregateFunction
  column : Column
  aliasName : Option String

inductive Expr where
  | column (c : Column)
  | value (v : Value)
  | predicate (p : Predicate)
  | aggregate (a : Aggregate)
  | raw (r : RawSql)
  | subquery (s : SubQuery)
  | list (items : List Expr)

inductive Predicate where
  | binary (left : Expr) (op : BinaryOp) (right : Expr)
  | prefixed (op : PrefixOp) (operand : Expr)
  | raw (r : RawSql)

/-- An item of a select list. -/
inductive Selectable where
  | column (c : Column)
  | aggregate (a : Aggregate)
  | raw (r : RawSql)
  | subquery (s : SubQuery)

structure OrderItem where
  column : Column
  descending : Bool

/-- A SELECT. An empty select list stands for all columns; the conditions of a list all have to hold. -/
structure Query where
  source : TableRef
  columns : List Selectable
  distinct : Bool
  conditions : List Predicate
  groupBy : List Column
  having : List Predicate
  orderBy : List OrderItem
  limit : Option (Integer .u64)
  offset : Option (Integer .u64)

/-- A query inside a statement. -/
structure SubQuery where
  query : Query
  aliasName : Option String

/-- What a statement reads from. -/
inductive TableRef where
  | table (t : Table)
  | join (kind : JoinKind) (left right : TableRef) (condition : JoinCondition)
  | subquery (s : SubQuery)

inductive JoinCondition where
  | on (conditions : List Predicate)
  /-- Fields that are to have the same value on both sides. -/
  | using (fields : List String)

end

def Column.named (field : String) : Column := ⟨none, field, none⟩

def TableRef.column (source : TableRef) (field : String) : Column := ⟨some source, field, none⟩

def Query.all (source : TableRef) : Query :=
  ⟨source, [], false, [], [], [], [], none, none⟩

namespace Predicate

def and (p q : Predicate) : Predicate := .binary (.predicate p) .and (.predicate q)

def or (p q : Predicate) : Predicate := .binary (.predicate p) .or (.predicate q)

def not (p : Predicate) : Predicate := .prefixed .not (.predicate p)

def existsRow (s : SubQuery) : Predicate := .prefixed .existsRow (.subquery s)

def notExistsRow (s : SubQuery) : Predicate := .prefixed .notExistsRow (.subquery s)

/-- Whether a predicate is a quantified subquery, which needs no parentheses as an operand. -/
def isQuantified : Predicate → Bool
  | prefixed op _ => op.isQuantifier
  | _ => false

def conjunction : List Predicate → Option Predicate
  | [] => none
  | p :: rest => some (rest.foldl and p)

/-- The operand before the operator; for a raw fragment, the fragment. -/
def left? : Predicate → Option Expr
  | binary l _ _ => some l
  | prefixed _ _ => none
  | raw r => some (.raw r)

def operator? : Predicate → Option (String × Bool)
  | binary _ op _ => some (op.sql, false)
  | prefixed op _ => some (op.sql, op.isQuantifier)
  | raw _ => none

def right? : Predicate → Option Expr
  | binary _ _ r => some r
  | prefixed _ e => some e
  | raw _ => none

end Predicate

namespace Column

def compare (c : Column) (op : BinaryOp) (e : Expr) : Predicate := .binary (.column c) op e

/-- Membership in a list of values. Nothing is in the empty list. -/
def inList (c : Column) (items : List Expr) : Predicate :=
  match items with
  | [] => .raw ⟨"1 = 0", []⟩
  | items => .binary (.column c) .isIn (.list items)

def inSubquery (c : Column) (s : SubQuery) : Predicate := .binary (.column c) .isIn (.subquery s)

end Column

def Aggregate.compare (a : Aggregate) (op : BinaryOp) (e : Expr) : Predicate :=
  .binary (.aggregate a) op e

namespace Expr

/-- A raw fragment as an operand, where it is put in parentheses. -/
def ofRaw (r : RawSql) : Expr := .predicate (.raw r)

/-- A quantified subquery, the right side of a comparison. -/
def quantified (op : PrefixOp) (s : SubQuery) : Expr := .predicate (.prefixed op (.subquery s))

end Expr

def Selectable.aliasName : Selectable → Option String
  | column c => c.aliasName
  | aggregate a => a.aliasName
  | raw _ => none
  | subquery s => s.aliasName

end EntitySql
