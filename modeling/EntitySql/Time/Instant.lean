namespace EntitySql

namespace Instant

/-- The first second of the calendar, in the year -262143. -/
def firstSecond : Int := -8334601228800

def lastSecond : Int := 8210266876799

end Instant

structure Instant where
  seconds : Int
  nanos : Nat
  first_le : Instant.firstSecond ≤ seconds
  le_last : seconds ≤ Instant.lastSecond
  nanos_lt : nanos < 2000000000
  deriving DecidableEq, Repr

namespace Instant

def ofParts? (seconds : Int) (nanos : Nat) : Option Instant :=
  if h : firstSecond ≤ seconds ∧ seconds ≤ lastSecond ∧ nanos < 2000000000 then
    some ⟨seconds, nanos, h.1, h.2.1, h.2.2⟩
  else none

def epoch : Instant := ⟨0, 0, by decide, by decide, by decide⟩

instance : Inhabited Instant := ⟨epoch⟩

end Instant

end EntitySql
