import EntitySql.Session.Driver
import EntitySql.Text.Occurrence
import EntitySql.Text.Truncate

namespace EntitySql

/-- What takes a statement on: the rest of a chain. -/
abbrev Handler (σ α : Type) := Context → Run σ α Outcome

/-- A handler around another. A chain is passed from the outermost to the innermost, and the driver stands
at its end. -/
abbrev Interceptor (σ α : Type) := Handler σ α → Handler σ α

namespace Handler

variable {σ τ α : Type}

/-- The end of a chain: the call on the driver, or on a transaction that it opened. -/
def ofDriver (d : Driver σ τ α) (tx : Option τ) : Handler σ α := fun ctx =>
  match ctx.mode with
  | .query => do
    let rows ← Run.call (d.query tx ctx.statement)
    pure (.rows rows)
  | .execute => do
    let result ← Run.call (d.execute tx ctx.statement)
    pure (.exec result)

/-- A chain in front of a handler; the first interceptor is the outermost. -/
def through (last : Handler σ α) : List (Interceptor σ α) → Handler σ α
  | [] => last
  | i :: rest => i (last.through rest)

end Handler

/-- The interceptors given here. Limits are for the bytes of the SQL text that is shown. -/
inductive Guard (α : Type) where
  | safeDelete
  | statementLog (level : LogLevel) (limit : Option Nat)
  /-- Notes the statements that take at least the time given, and calls back. -/
  | slowStatement (threshold : Nat) (callback : Option (Context → Nat → α))
  | stats
  | span (limit : Option Nat)

namespace Guard

variable {σ α : Type}

/-- The limit for SQL texts where none is chosen. -/
def defaultLimit : Option Nat := some 200

def whereClause : List Char := " WHERE ".toList

def isUnsafe (ctx : Context) : Bool :=
  ctx.kind = .delete && !Text.occurs whereClause ctx.statement.sql.toList

/-- The SQL text of a statement as it is shown, within a limit. -/
def shown (limit : Option Nat) (ctx : Context) : Run σ α String :=
  Run.ofOption (Text.truncate? limit ctx.statement.sql)

def intercept (g : Guard α) (next : Handler σ α) (ctx : Context) : Run σ α Outcome :=
  match g with
  | safeDelete =>
    if isUnsafe ctx then do
      Run.note [.rejectedDelete ctx.statement.sql]
      Run.fail .unsafeDelete
    else next ctx
  | statementLog level limit => do
    let sql ← shown limit ctx
    Run.note [.statement level ctx.kind ctx.statement.args.length sql]
    next ctx
  | slowStatement threshold callback => do
    let start ← Run.clock
    let outcome ← (next ctx).attempt
    let stop ← Run.clock
    if threshold ≤ stop - start then
      let sql ← shown defaultLimit ctx
      Run.note [.slowStatement ctx.kind sql]
      Run.note ((callback.map fun f => .own (f ctx (stop - start))).toList)
    Run.ofExcept outcome
  | stats => do
    let start ← Run.clock
    let outcome ← (next ctx).attempt
    let stop ← Run.clock
    Run.observe (ctx.kind, ctx.table) (stop - start) !outcome.isOk
    Run.ofExcept outcome
  | span limit => do
    let sql ← shown limit ctx
    Run.note [.spanOpened ctx.kind ctx.table sql]
    let outcome ← (next { ctx with spans := spanName :: ctx.spans }).attempt
    match outcome with
    | .ok outcome => pure outcome
    | .error e => do
      Run.note [.spanFailed e]
      Run.fail e

end Guard

end EntitySql
