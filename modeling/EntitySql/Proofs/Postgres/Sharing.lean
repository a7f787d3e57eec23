import EntitySql.Postgres.Task

namespace EntitySql.Postgres

/-- Who sends a request: the caller that took the connection as the `hold`-th, or the transaction that
this caller has begun. -/
inductive Origin where
  | driver (hold : Nat)
  | transaction (hold : Nat)
  deriving DecidableEq, Repr

def Origin.hold : Origin → Nat
  | driver hold | transaction hold => hold

/-- What happens on a shared connection. -/
inductive Incident (π : Type) where
  | sent (o : Origin) (r : Request π)
  /-- The server executes a request. It may refuse to end a transaction and end it nevertheless. -/
  | executed (o : Origin) (r : Request π) (accepted ended : Bool)
  | heard (o : Origin) (r : Request π) (accepted : Bool)
  /-- The caller is given up before it hears the answer. -/
  | dropped (o : Origin) (r : Request π)
  | released (hold : Nat) (l : Lease)

variable {σ π : Type}

/-- The transaction that the server is inside, named by the hold of its `BEGIN`, after an incident. -/
def Incident.turn (inside : Option Nat) : Incident π → Option Nat
  | executed o (.control .begin) accepted _ => if accepted then inside.or (some o.hold) else inside
  | executed _ (.control _) accepted ended => if accepted || ended then none else inside
  | _ => inside

/-- The transaction that the server is inside after incidents, the oldest first. -/
def opened (log : List (Incident π)) : Option Nat := log.foldl Incident.turn none

/-- A request that the server has not executed yet. -/
structure Pending (π : Type) where
  origin : Origin
  request : Request π
  /-- What is in hand of the caller that waits for the answer, and how it goes on; none once the caller
  is given up. -/
  waiter : Option (Option Lease × (Option request.Result → Task π Unit))

/-- A caller whose request has been executed. -/
structure Answered (π : Type) where
  origin : Origin
  request : Request π
  accepted : Bool
  lease : Option Lease
  task : Task π Unit

/-- A connection between its callers: who holds it, who waits for it, and which requests are under way. -/
structure Sharing (π : Type) where
  connection : Connection
  holds : Nat
  waiting : List (Task π Unit)
  transactions : List (Nat × Lease)
  pending : List (Pending π)
  answered : List (Answered π)
  log : List (Incident π)

namespace Sharing

/-- Nobody has asked for the connection yet. -/
def start : Sharing π := ⟨.idle, 0, [], [], [], [], []⟩

def leases (S : Sharing π) : List Lease :=
  S.transactions.map Prod.snd ++ S.pending.filterMap (fun p => p.waiter.bind Prod.fst) ++
    S.answered.filterMap Answered.lease

def note (S : Sharing π) (i : Incident π) : Sharing π := { S with log := S.log ++ [i] }

def giveUp (S : Sharing π) (hold : Nat) : Option Lease → Sharing π
  | none => S
  | some l => note { S with connection := S.connection.release l } (.released hold l)

/-- A task that goes on up to where it waits next. One that ends with the connection in hand has begun a
transaction. -/
def proceed (o : Origin) : Task π Unit → Option Lease → Sharing π → Sharing π
  | .done _, none, S => S
  | .done _, some l, S => { S with transactions := (o.hold, l) :: S.transactions }
  | .acquire next, _, S => { S with waiting := S.waiting ++ [.acquire next] }
  | .mark inTransaction next, l, S => proceed o next (l.map fun _ => ⟨inTransaction⟩) S
  | .warn next, l, S => proceed o next l S
  | .ask r next, l, S => note { S with pending := S.pending ++ [⟨o, r, some (l, next)⟩] } (.sent o r)
  | .release next, l, S => proceed o next none (S.giveUp o.hold l)

/-- No statement is under way in the name of a transaction. -/
def Idle (S : Sharing π) (hold : Nat) : Prop :=
  (∀ p ∈ S.pending, p.origin = .transaction hold → p.waiter = none) ∧
    ∀ a ∈ S.answered, a.origin ≠ .transaction hold

end Sharing

/-- The calls that the driver takes. -/
inductive Task.OfDriver (s : Server σ π) : Task π Unit → Prop
  | query (st : Statement) : OfDriver s (leased (Task.query s st)).quiet
  | execute (st : Statement) : OfDriver s (leased (Task.execute s st)).quiet
  | begin : OfDriver s Task.begin

/-- The statements that a transaction takes. -/
inductive Task.OfTransaction (s : Server σ π) : Task π Unit → Prop
  | query (st : Statement) : OfTransaction s (Task.query s st).quiet
  | execute (st : Statement) : OfTransaction s (Task.execute s st).quiet

namespace Sharing

/-- One move of a caller or of the server. Callers may come, leave or be given up whenever they wait. -/
inductive Step (s : Server σ π) : Sharing π → Sharing π → Prop
  | call {S : Sharing π} {t : Task π Unit} (ht : t.OfDriver s) :
    Step s S { S with waiting := S.waiting ++ [t] }
  | leave {S : Sharing π} {W W' : List (Task π Unit)} {t : Task π Unit} (hw : S.waiting = W ++ t :: W') :
    Step s S { S with waiting := W ++ W' }
  | acquire {S : Sharing π} {W W' : List (Task π Unit)} {next : Bool → Task π Unit} {c : Connection}
    {abandoned : Bool} (hw : S.waiting = W ++ .acquire next :: W')
    (hc : S.connection.acquire? = some (c, abandoned)) :
    Step s S (proceed (.driver S.holds) (next abandoned) (some ⟨false⟩)
      { S with connection := c, holds := S.holds + 1, waiting := W ++ W' })
  | statement {S : Sharing π} {hold : Nat} {l : Lease} {t : Task π Unit}
    (hl : (hold, l) ∈ S.transactions) (ht : t.OfTransaction s) :
    Step s S (proceed (.transaction hold) t none S)
  | finish {S : Sharing π} {T T' : List (Nat × Lease)} {hold : Nat} {l : Lease} {command : Control}
    (hl : S.transactions = T ++ (hold, l) :: T') (hi : S.Idle hold)
    (hcommand : command = .commit ∨ command = .rollback) :
    Step s S (proceed (.transaction hold) (.finish command) (some l) { S with transactions := T ++ T' })
  /-- A transaction is given up with neither commit nor rollback. -/
  | abandon {S : Sharing π} {T T' : List (Nat × Lease)} {hold : Nat} {l : Lease}
    (hl : S.transactions = T ++ (hold, l) :: T') (hi : S.Idle hold) :
    Step s S (giveUp { S with transactions := T ++ T' } hold (some l))
  | execute {S : Sharing π} {p : Pending π} {P : List (Pending π)} (hp : S.pending = p :: P)
    (answer : Option p.request.Result) (ended : Bool) :
    Step s S (note
      { S with
        pending := P
        answered := S.answered ++ (p.waiter.map fun w =>
          ⟨p.origin, p.request, answer.isSome, w.1, w.2 answer⟩).toList }
      (.executed p.origin p.request answer.isSome ended))
  | resume {S : Sharing π} {A A' : List (Answered π)} {a : Answered π} (ha : S.answered = A ++ a :: A') :
    Step s S (proceed a.origin a.task a.lease
      (note { S with answered := A ++ A' } (.heard a.origin a.request a.accepted)))
  /-- A caller is given up while the server has its request. -/
  | drop {S : Sharing π} {P P' : List (Pending π)} {o : Origin} {r : Request π} {l : Option Lease}
    {next : Option r.Result → Task π Unit} (hp : S.pending = P ++ ⟨o, r, some (l, next)⟩ :: P') :
    Step s S (giveUp (note { S with pending := P ++ ⟨o, r, none⟩ :: P' } (.dropped o r)) o.hold l)
  /-- A caller is given up while the answer is on its way. -/
  | miss {S : Sharing π} {A A' : List (Answered π)} {a : Answered π} (ha : S.answered = A ++ a :: A') :
    Step s S (giveUp (note { S with answered := A ++ A' } (.dropped a.origin a.request))
      a.origin.hold a.lease)

/-- The states that calls on a free connection lead to. -/
inductive Reachable (s : Server σ π) : Sharing π → Prop
  | start : Reachable s .start
  | step {S S' : Sharing π} (hS : Reachable s S) (h : Step s S S') : Reachable s S'

end Sharing

end EntitySql.Postgres
