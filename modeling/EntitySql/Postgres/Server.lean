import EntitySql.Postgres.RawCell
import EntitySql.Session.Outcome
import EntitySql.Text.Split

namespace EntitySql.Postgres

/-- What a server answers to a statement: the rows, and the tag of the command. -/
structure Answer where
  rows : List (List RawCell)
  tag : String
  deriving DecidableEq, Repr

/-- What a server is sent. -/
inductive Message where
  | parse (sql : String)
  | bind (params : List RawCell)
  | simple (sql : String)
  deriving DecidableEq, Repr

/-- A command that begins or ends a transaction. -/
inductive Control where
  | begin
  | commit
  | rollback
  deriving DecidableEq, Repr

def Control.sql : Control → String
  | begin => "BEGIN"
  | commit => "COMMIT"
  | rollback => "ROLLBACK"

/-- What a server with prepared statements `π` is asked. -/
inductive Request (π : Type) where
  | prepare (sql : String)
  | run (prepared : π) (cells : List RawCell)
  | control (command : Control)
  deriving DecidableEq, Repr

namespace Request

variable {π : Type}

abbrev Result : Request π → Type
  | prepare _ => π
  | run _ _ => Answer
  | control _ => Unit

def message : Request π → Message
  | prepare sql => .parse sql
  | run _ cells => .bind cells
  | control command => .simple command.sql

end Request

/-- A server with states `σ` and prepared statements `π`. It may refuse any request. -/
structure Server (σ π : Type) where
  prepare : String → σ → Option π × σ
  params : π → List ColumnType
  columns : π → List ResultColumn
  run : π → List RawCell → σ → Option Answer × σ
  simple : String → σ → Bool × σ

def Server.answer {σ π : Type} (s : Server σ π) : (r : Request π) → σ → Option r.Result × σ
  | .prepare sql, server => s.prepare sql server
  | .run prepared cells, server => s.run prepared cells server
  | .control command, server =>
    let (accepted, server) := s.simple command.sql server
    (if accepted then some () else none, server)

def refused : Error := .query "db error"

/-- The bytes of arguments from the one in position `i` on. -/
def encodeFrom (i : Nat) : List ColumnType → List Value → Except Error (List RawCell)
  | t :: types, v :: args =>
    match Parameter.encode t v with
    | .error _ => .error (.query ("error serializing parameter " ++ toString i))
    | .ok cell => (cell :: ·) <$> encodeFrom (i + 1) types args
  | _, _ => .ok []

def encodeArgs (params : List ColumnType) (args : List Value) : Except Error (List RawCell) :=
  if params.length = args.length then encodeFrom 0 params args
  else
    .error (.query
      ("expected " ++ toString params.length ++ " parameters but got " ++ toString args.length))

/-- The value of decimal digits after those that make up `value`. -/
def decimal? (value : Nat) : List Char → Option Nat
  | [] => some value
  | c :: rest => if c.isDigit then decimal? (value * 10 + (c.toNat - 48)) rest else none

/-- The count that a word stands for: digits, with or without a plus sign. -/
def count? : List Char → Option (Integer .u64)
  | [] | ['+'] => none
  | '+' :: digits => decimal? 0 digits >>= fun n => Integer.ofInt? .u64 n
  | digits => decimal? 0 digits >>= fun n => Integer.ofInt? .u64 n

/-- The number of rows that a tag reports in its last word. -/
def affected (tag : String) : Integer .u64 :=
  (((Text.split ' ' tag.toList).getLast?.getD []) |> count?).getD (.zero .u64)

def execResult (tag : String) : ExecResult where
  rowsAffected := .ok (affected tag)
  lastInsertId := .error (.driver "postgres does not report a last insert id; use RETURNING")

end EntitySql.Postgres
