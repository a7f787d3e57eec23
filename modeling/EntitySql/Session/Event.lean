import EntitySql.Session.Outcome

namespace EntitySql

inductive LogLevel where
  | error | warn | info | debug | trace
  deriving DecidableEq, Repr

def LogLevel.name : LogLevel → String
  | error => "ERROR"
  | warn => "WARN"
  | info => "INFO"
  | debug => "DEBUG"
  | trace => "TRACE"

inductive Event (α : Type) where
  | opened (dialect : String) (interceptors : Nat)
  /-- A model is read off the metadata of its type. -/
  | parsed (table : String) (fields : Nat)
  | statement (level : LogLevel) (kind : StatementKind) (argCount : Nat) (sql : String)
  | slowStatement (kind : StatementKind) (sql : String)
  | rejectedDelete (sql : String)
  | rollbackFailed (error failure : Error)
  /-- A transaction that was given up unfinished is rolled back. -/
  | abandoned
  | spanOpened (kind : StatementKind) (table : Option String) (sql : String)
  | spanFailed (error : Error)
  | own (event : α)

/-- An event in words. -/
inductive Report where
  | event (level : LogLevel) (message : String) (fields : List (String × String))
  | span (level : LogLevel) (name : String) (fields : List (String × String))
  | spanRecord (fields : List (String × String))
  deriving DecidableEq, Repr

def spanName : String := "statement"

namespace Event

variable {α : Type}

/-- An event in words, or the event of another maker. -/
def report : Event α → Report ⊕ α
  | opened dialect interceptors =>
    .inl (.event .debug "opening db" [("dialect", dialect), ("interceptors", toString interceptors)])
  | parsed table fields =>
    .inl (.event .debug "parsed model" [("table", table), ("fields", toString fields)])
  | statement level kind argCount sql =>
    .inl (.event level "statement" [("kind", kind.name), ("arg_count", toString argCount), ("sql", sql)])
  | slowStatement kind sql => .inl (.event .warn "slow statement" [("kind", kind.name), ("sql", sql)])
  | rejectedDelete sql => .inl (.event .warn "rejected DELETE without WHERE" [("sql", sql)])
  | rollbackFailed error failure =>
    .inl (.event .error "transaction rollback failed"
      [("error", error.message), ("rollback_error", failure.message)])
  | abandoned =>
    .inl (.event .warn "rolling back transaction dropped without commit or rollback" [])
  | spanOpened kind table sql =>
    .inl (.span .info spanName
      [("kind", kind.name), ("table", table.getD ""), ("sql", sql), ("otel.kind", "client")])
  | spanFailed error => .inl (.spanRecord [("error", error.message)])
  | own event => .inr event

end Event

end EntitySql
