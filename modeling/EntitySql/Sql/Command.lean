import EntitySql.Entity.Access
import EntitySql.Sql.Dialect
import EntitySql.Sql.Query

namespace EntitySql

inductive StatementKind where
  | raw | select | insert | update | delete
  deriving DecidableEq, Repr

def StatementKind.name : StatementKind → String
  | raw => "raw"
  | select => "select"
  | insert => "insert"
  | update => "update"
  | delete => "delete"

/-- A SELECT of rows to be read as entities of a type. -/
structure Selection where
  entity : TypeId
  query : Query
  /-- The message of the first expression that has no place in a select list. -/
  refused : Option String

/-- An INSERT of entities; of all fields if none are listed. -/
structure Insertion where
  entity : TypeId
  rows : List Entity
  fields : List String
  onConflict : Option OnConflict

/-- An UPDATE, with the entity that gives fields their values, if there is one. -/
structure Updating where
  entity : TypeId
  source : Option Entity
  assigns : List Assignable
  conditions : List Predicate

structure Deletion where
  entity : TypeId
  conditions : List Predicate

inductive Command where
  | select (s : Selection)
  | insert (i : Insertion)
  | update (u : Updating)
  | delete (d : Deletion)
  | raw (r : RawSql)

/-- The item of a select list that an expression is, if it has a place there. -/
def Expr.selectable : Expr → Except Error Selectable
  | column c => .ok (.column c)
  | aggregate a => .ok (.aggregate a)
  | raw r => .ok (.raw r)
  | subquery s => .ok (.subquery s)
  | value v => .error (.unsupportedExpression ("value " ++ v.kind ++ " is not selectable"))
  | predicate _ => .error (.unsupportedExpression "predicate is not selectable")
  | list _ => .error (.unsupportedExpression "value list is not selectable")

namespace Selection

def all (entity : TypeId) : Selection := ⟨entity, Query.all (.table ⟨entity, none⟩), none⟩

def fromSource (s : Selection) (source : TableRef) : Selection :=
  { s with query := { s.query with source } }

def select (s : Selection) (items : List Selectable) : Selection :=
  { s with query := { s.query with columns := s.query.columns ++ items } }

/-- The SELECT with one more item; the first expression that is none is remembered. -/
def selectExpr (s : Selection) (e : Expr) : Selection :=
  match e.selectable with
  | .ok item => s.select [item]
  | .error err => { s with refused := s.refused <|> some err.message }

def distinct (s : Selection) : Selection := { s with query := { s.query with distinct := true } }

def filterBy (s : Selection) (conditions : List Predicate) : Selection :=
  { s with query := { s.query with conditions := s.query.conditions ++ conditions } }

def groupBy (s : Selection) (columns : List Column) : Selection :=
  { s with query := { s.query with groupBy := s.query.groupBy ++ columns } }

def having (s : Selection) (conditions : List Predicate) : Selection :=
  { s with query := { s.query with having := s.query.having ++ conditions } }

def orderBy (s : Selection) (items : List OrderItem) : Selection :=
  { s with query := { s.query with orderBy := s.query.orderBy ++ items } }

def limit (s : Selection) (n : Integer .u64) : Selection :=
  { s with query := { s.query with limit := some n } }

def offset (s : Selection) (n : Integer .u64) : Selection :=
  { s with query := { s.query with offset := some n } }

def asSubQuery (s : Selection) : SubQuery := ⟨s.query, none⟩

end Selection

namespace Insertion

def into (entity : TypeId) : Insertion := ⟨entity, [], [], none⟩

def values (i : Insertion) (rows : List Entity) : Insertion := { i with rows := i.rows ++ rows }

def only (i : Insertion) (fields : List String) : Insertion := { i with fields := i.fields ++ fields }

def upsert (i : Insertion) (clause : OnConflict) : Insertion := { i with onConflict := some clause }

end Insertion

namespace Updating

def table (entity : TypeId) : Updating := ⟨entity, none, [], []⟩

def withSource (u : Updating) (e : Entity) : Updating := { u with source := some e }

def set (u : Updating) (assigns : List Assignable) : Updating := { u with assigns := u.assigns ++ assigns }

def filterBy (u : Updating) (conditions : List Predicate) : Updating :=
  { u with conditions := u.conditions ++ conditions }

end Updating

namespace Deletion

def all (entity : TypeId) : Deletion := ⟨entity, []⟩

def filterBy (d : Deletion) (conditions : List Predicate) : Deletion :=
  { d with conditions := d.conditions ++ conditions }

end Deletion

def RawSql.bind (r : RawSql) (args : List Value) : RawSql := { r with args := r.args ++ args }

/-- What building depends on. -/
structure Compiler where
  dialect : Dialect
  access : Access
  lookup : TypeId → Except Error Model

namespace Compiler

open Emission

variable (c : Compiler)

def scopeOf (entity : TypeId) : Option TableRef := some (.table ⟨entity, none⟩)

def insertedFields (m : Model) : List String → Except Error (List Field)
  | [] => .ok m.fields
  | names => names.mapM m.requireField

def bindField (m : Model) (e : Entity) (field : String) : Emission Unit := do
  let v ← ofExcept (c.access.read m e field)
  bound v

def emitRow (m : Model) (fields : List Field) (e : Entity) : Emission Unit :=
  bracketed (separated (fun f => c.bindField m e f.name) fields)

def emitInsertion (i : Insertion) : Emission Unit :=
  if i.rows.isEmpty then fail .emptyInsertRow
  else do
    let m ← model c.lookup i.entity
    let fields ← ofExcept (insertedFields m i.fields)
    text "INSERT INTO "
    name m.table
    text " ("
    separated (fun f => name f.column) fields
    text ") VALUES "
    separated (c.emitRow m fields) i.rows
    match i.onConflict with
    | some oc => c.dialect.upsert (Sql.emitOperand c.lookup (scopeOf i.entity)) m oc
    | none => pure ()

def emitAssignable (u : Updating) (m : Model) : Assignable → Emission Unit
  | .assign field value => do
    Dialect.writeColumn m field
    text " = "
    Sql.emitOperand c.lookup (scopeOf u.entity) value
  | .copy field =>
    match u.source with
    | none =>
      fail (.invalidAssignment ("column " ++ field ++ " needs an entity to read its value from"))
    | some e => do
      Dialect.writeColumn m field
      text " = "
      c.bindField m e field

def emitUpdating (u : Updating) : Emission Unit :=
  if u.assigns.isEmpty then fail .emptyUpdateAssignment
  else do
    let m ← model c.lookup u.entity
    text "UPDATE "
    name m.table
    text " SET "
    separated (c.emitAssignable u m) u.assigns
    Sql.emitConditions c.lookup (scopeOf u.entity) "WHERE" u.conditions

def emitDeletion (d : Deletion) : Emission Unit := do
  let m ← model c.lookup d.entity
  text "DELETE FROM "
  name m.table
  Sql.emitConditions c.lookup (scopeOf d.entity) "WHERE" d.conditions

def emitSelection (s : Selection) : Emission Unit :=
  match s.refused with
  | some message => fail (.unsupportedExpression message)
  | none => Sql.emitQuery c.lookup s.query

/-- What a walk over a command leaves behind; nothing for SQL as the caller wrote it. -/
def emit : Command → Emission Unit
  | .select s => c.emitSelection s
  | .insert i => c.emitInsertion i
  | .update u => c.emitUpdating u
  | .delete d => c.emitDeletion d
  | .raw _ => pure ()

def build (cmd : Command) : Except Error Statement :=
  match cmd with
  | .raw r => .ok ⟨r.sql, r.args⟩
  | cmd =>
    let e := c.emit cmd
    match e.outcome with
    | .ok () => .ok (c.dialect.spelling.statement e.pieces)
    | .error err => .error err

end Compiler

namespace Command

def kind : Command → StatementKind
  | select _ => .select
  | insert _ => .insert
  | update _ => .update
  | delete _ => .delete
  | raw _ => .raw

/-- The type that a command is about; SQL as the caller wrote it is about none. -/
def entity? : Command → Option TypeId
  | select s => some s.entity
  | insert i => some i.entity
  | update u => some u.entity
  | delete d => some d.entity
  | raw _ => none

end Command

end EntitySql
