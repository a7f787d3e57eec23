import EntitySql.Postgres.Task
import EntitySql.Session.Driver

namespace EntitySql.Postgres

/-- The connection and the server at its other end. -/
structure Client (σ : Type) where
  connection : Connection
  server : σ

namespace Client

variable {σ π α β : Type}

def idle (server : σ) : Client σ := ⟨.idle, server⟩

variable (s : Server σ π) (observe : Message → α)

/-- What a task gives, with the lease that is left in hand. Without the connection it waits forever. -/
def perform : Task π β → Lease → Call (Client σ) α (β × Lease)
  | .done x, l => Call.ofExcept (x.map (·, l))
  | .acquire next, _ => fun c =>
    match c.connection.acquire? with
    | none => ⟨c, [], 0, none⟩
    | some (connection, abandoned) => perform (next abandoned) ⟨false⟩ { c with connection }
  | .mark inTransaction next, _ => perform next ⟨inTransaction⟩
  | .warn next, l => do
    Call.note .abandoned
    perform next l
  | .ask r next, l => do
    Call.note (.own (observe r.message))
    fun c =>
      let (answer, server) := s.answer r c.server
      perform (next answer) l { c with server }
  | .release next, l => fun c => perform next l { c with connection := c.connection.release l }

def call (t : Task π β) (l : Lease) : Call (Client σ) α β := do
  let (b, _) ← perform s observe t l
  pure b

def driver : Driver (Client σ) Lease α where
  query tx st :=
    match tx with
    | none => call s observe (.leased (.query s st)) ⟨false⟩
    | some l => call s observe (.query s st) l
  execute tx st :=
    match tx with
    | none => call s observe (.leased (.execute s st)) ⟨false⟩
    | some l => call s observe (.execute s st) l
  begin := do
    let (_, l) ← perform s observe .begin ⟨false⟩
    pure l
  commit l := call s observe (.finish .commit) l
  rollback l := call s observe (.finish .rollback) l
  abandon l c := { c with connection := c.connection.release l }

end Client

end EntitySql.Postgres
