import EntitySql.Postgres.Client
import EntitySql.Session.Database

namespace EntitySql.Rehearsal

/-- A call that a scripted database takes. -/
inductive DatabaseCall where
  | query (st : Statement)
  | execute (st : Statement)
  | begin
  | commit
  | rollback
  deriving DecidableEq, Repr

def DatabaseCall.name : DatabaseCall → String
  | query _ => "query"
  | execute _ => "execute"
  | begin => "begin"
  | commit => "commit"
  | rollback => "rollback"

/-- What a step of a script gives. -/
inductive Answer where
  | nothing
  | done
  | entity (e : Entity)
  | entities (es : List Entity)
  | report (r : ExecResult)
  | statement (st : Statement)
  | model (m : Model)
  | stats (s : Stats)
  | counters (s : Option StatementStats)

inductive Observation where
  | called (c : DatabaseCall)
  | sent (m : Postgres.Message)
  | before (recorder : String) (ctx : Context)
  | after (recorder : String) (outcome : Except Error Outcome)
  | slow (ctx : Context)
  /-- A step in the body of a transaction is answered. -/
  | answered (answer : Except Error Answer)

namespace Interceptor

variable {σ : Type}

def record (name : String) : Interceptor σ Observation := fun next ctx => do
  Run.note [.own (.before name ctx)]
  let outcome ← (next ctx).attempt
  Run.note [.own (.after name outcome)]
  Run.ofExcept outcome

def answer (outcome : Except Error Outcome) : Interceptor σ Observation := fun _ _ => Run.ofExcept outcome

/-- Appends to every statement, and calls its table `rewritten`. -/
def amend (addition : String) : Interceptor σ Observation := fun next ctx =>
  next { ctx with
    statement := { ctx.statement with sql := ctx.statement.sql ++ addition }
    table := some "rewritten" }

end Interceptor

end EntitySql.Rehearsal
