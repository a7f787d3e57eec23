namespace EntitySql.Postgres

structure Connection where
  held : Bool
  abandoned : Bool
  deriving DecidableEq, Repr

/-- What a holder has: the connection, inside a transaction or not. -/
structure Lease where
  inTransaction : Bool
  deriving DecidableEq, Repr

namespace Connection

def idle : Connection := ⟨false, false⟩

/-- The connection in the hands of a holder, who learns whether a transaction was left open. Nobody
else may hold it. -/
def acquire? (c : Connection) : Option (Connection × Bool) :=
  if c.held then none else some (⟨true, false⟩, c.abandoned)

def release (c : Connection) (l : Lease) : Connection := ⟨false, c.abandoned || l.inTransaction⟩

end Connection

end EntitySql.Postgres
