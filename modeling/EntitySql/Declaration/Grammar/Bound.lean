import EntitySql.Declaration.Grammar.Path

namespace EntitySql.Grammar

open Reading
open Token hiding name label text literal mark group number

/-- Where bounds stand, which decides what some of them may be. -/
structure BoundPlace where
  /-- Whether `use` with the parameters that a type may depend on is a bound. -/
  captures : Bool
  /-- Whether a trait may be asked for as a constant one. -/
  constant : Bool
  deriving DecidableEq, Repr

namespace BoundPlace

def named : BoundPlace := ⟨false, true⟩

/-- In a type that is known by its bounds alone. -/
def hidden : BoundPlace := ⟨true, true⟩

def object : BoundPlace := ⟨false, false⟩

end BoundPlace

section

variable (read : Reader)

/-- The types given to a name in round brackets, and the type that comes of them. -/
def callArguments : Reading Unit := do
  inside .round (listed (type read))
  if ← mayMark "->" then plainType read

def binder : Reading Unit := do
  word "for"
  mark "<"
  upTo (isMark ">") "," (discard (read .parameter))
  mark ">"

/-- The sign of a trait that is asked for as a constant one. -/
def constantSign (place : BoundPlace) : Reading Unit := do
  let ts ← get
  if isGroup .square ts then inside .square (word "const")
  else if isWord "const" ts then word "const"
  else return
  unless place.constant do failure

/-- A trait. It may be one that need not be fitted, but not for all of some parameters. -/
def trait (place : BoundPlace) : Reading Unit := do
  let bound ← ifStarts (isWord "for") (binder read)
  constantSign place
  let optional ← mayMark "?"
  let bound ← if bound || !optional then pure bound else ifStarts (isWord "for") (binder read)
  let form ← path read false
  let ts ← get
  if form.isOpen && (isGroup .round ts || (isMark "::" ts && isGroup .round (ts.drop 2))) then
    discard (mayMark "::")
    callArguments read
  if bound && optional then failure

/-- The parameters that a type may depend on. -/
def capture : Reading Unit := do
  word "use"
  mark "<"
  upTo (isMark ">") "," (one fun ts => isLabel ts || isName ts || isWord "Self" ts)
  mark ">"

def bound (place : BoundPlace) : Reading Bool := do
  let ts ← get
  if isLabel ts then
    label
    return false
  else if isWord "use" ts then
    unless place.captures do failure
    capture
    return false
  else
    if isGroup .round ts then inside .round (trait read place) else trait read place
    return true

/-- Whether another bound follows a plus sign. -/
def startsBound (place : BoundPlace) (ts : List Token) : Bool :=
  isAnyName ts || isMark "::" ts || isMark "?" ts || isLabel ts || isGroup .round ts ||
    (place.constant && (isGroup .square ts || isWord "const" ts))

/-- The bounds of a type that is known by them, at least one of them a trait; `several` tells whether there may
be more than one. -/
def bounds (several : Bool) (place : BoundPlace) : Reading Unit := do
  let first ← bound read place
  let found ← iterate (fun found => do
    let ts ← get
    unless several && isMark "+" ts && startsBound place ts.tail do return none
    mark "+"
    let more ← bound read place
    return some (found || more)) first
  if several then discard (mayMark "+")
  unless found do failure

/-- Bounds behind a name and a colon, as long as the row does not go on in some way. -/
def namedBounds (stop : List Token → Bool) : Reading Unit :=
  chained stop "+" (discard (bound read .named))

end

end EntitySql.Grammar
