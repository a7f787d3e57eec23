import EntitySql.Postgres.Connection
import EntitySql.Postgres.Server

namespace EntitySql.Postgres

/-- What a caller of a shared connection does, up to its end. It waits for the connection and for the
answers of the server, and may be given up there; in between it runs without a break. -/
inductive Task (π β : Type) where
  | done (result : Except Error β)
  /-- Waits for the connection, and learns whether a transaction was left open on it. -/
  | acquire (next : Bool → Task π β)
  /-- Marks the lease in hand as inside a transaction or not. -/
  | mark (inTransaction : Bool) (next : Task π β)
  | warn (next : Task π β)
  | ask (r : Request π) (next : Option r.Result → Task π β)
  | release (next : Task π β)

namespace Task

variable {σ π β γ : Type}

def after : Task π β → (Except Error β → Task π γ) → Task π γ
  | done x, k => k x
  | acquire next, k => acquire fun abandoned => (next abandoned).after k
  | mark inTransaction next, k => mark inTransaction (next.after k)
  | warn next, k => warn (next.after k)
  | ask r next, k => ask r fun answer => (next answer).after k
  | release next, k => release (next.after k)

def bind (t : Task π β) (f : β → Task π γ) : Task π γ :=
  t.after fun
    | .ok b => f b
    | .error e => done (.error e)

instance : Monad (Task π) where
  pure b := done (.ok b)
  bind := bind

def quiet (t : Task π β) : Task π Unit := t.after fun x => done (x.map fun _ => ())

def closing (t : Task π β) : Task π β := t.after fun x => release (done x)

/-- The task, after which the connection is given up if it failed. -/
def keeping (t : Task π β) : Task π β :=
  t.after fun
    | .ok b => done (.ok b)
    | .error e => release (done (.error e))

def request (r : Request π) : Task π r.Result :=
  ask r fun answer => done (answer.elim (.error refused) .ok)

/-- Takes the connection. A transaction that was left open is rolled back first, and counts as open
until that succeeds. -/
def lease : Task π Unit :=
  acquire fun abandoned =>
    if abandoned then
      warn do
        mark true do
          request (.control .rollback)
          mark false (pure ())
    else pure ()

def leased (t : Task π β) : Task π β :=
  closing do
    lease
    t

variable (s : Server σ π)

def run (st : Statement) : Task π (π × Answer) := do
  let prepared ← request (.prepare st.sql)
  let cells ← done (encodeArgs (s.params prepared) st.args)
  let answer ← request (.run prepared cells)
  pure (prepared, answer)

def query (st : Statement) : Task π Rows := do
  let (prepared, answer) ← run s st
  done (rowsOf (s.columns prepared) answer.rows)

def execute (st : Statement) : Task π ExecResult := do
  let (_, answer) ← run s st
  pure (execResult answer.tag)

def begin : Task π Unit :=
  keeping do
    lease
    request (.control .begin)
    mark true (pure ())

/-- Ends a transaction; it counts as open if the server refuses. -/
def finish (command : Control) : Task π Unit :=
  closing do
    request (.control command)
    mark false (pure ())

end Task

end EntitySql.Postgres
