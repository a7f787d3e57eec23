import EntitySql.Declaration.Token.Basic

namespace EntitySql

/-- Recognises the first tokens of a row and leaves those after them, or refuses the row. -/
abbrev Reading (α : Type) := StateT (List Token) Option α

namespace Reading

open Token

/-- What a reading finds in a row that it reads to its end. -/
def all? {α : Type} (r : Reading α) (ts : List Token) : Option α :=
  match r ts with
  | some (a, []) => some a
  | _ => none

def leaving (f : List Token → Option (List Token)) : Reading Unit := fun ts => (f ts).map (((), ·))

/-- Takes the first token if tokens start as they should. -/
def one (p : List Token → Bool) : Reading Unit := leaving fun ts => if p ts then some ts.tail else none

def mark (marks : String) : Reading Unit := leaving (after marks)

def word (w : String) : Reading Unit := one (isWord w)

def name : Reading Unit := one isName

def anyName : Reading Unit := one isAnyName

/-- Takes a name, or the stroke that stands for none. -/
def nameOrStroke : Reading Unit := one fun ts => isName ts || isWord "_" ts

def label : Reading Unit := one isLabel

def text : Reading Unit := one isText

def literal : Reading Unit := leaving afterLiteral?

def anyGroup : Reading Unit := one isAnyGroup

def group (b : Bracket) : Reading Unit := one (isGroup b)

def inside {α : Type} (b : Bracket) (r : Reading α) : Reading α
  | .group b' inner :: rest => if b = b' then (r.all? inner).map (·, rest) else none
  | _ => none

/-- Whether the rest of a row starts in some way. -/
def startsWith (p : List Token → Bool) : Reading Bool := return p (← get)

def atEnd : Reading Bool := startsWith List.isEmpty

/-- Reads on only if the rest of the row starts in some way; tells whether it did. -/
def ifStarts (p : List Token → Bool) (r : Reading Unit) : Reading Bool := do
  if p (← get) then
    r
    return true
  return false

def mayMark (marks : String) : Reading Bool := ifStarts (isMark marks) (mark marks)

def mayWord (w : String) : Reading Bool := ifStarts (isWord w) (word w)

def skipWord (w : String) : Reading Unit := discard (mayWord w)

/-- Takes steps from a value to the next one, at most some number of them, until a step gives none. -/
def iterateWithin {α : Type} (step : α → Reading (Option α)) : Nat → α → Reading α
  | 0, _ => failure
  | k + 1, a => do
    match ← step a with
    | some next => iterateWithin step k next
    | none => return a

/-- Takes steps from a value to the next one until a step gives none. Every other step has to take tokens. -/
def iterate {α : Type} (step : α → Reading (Option α)) (a : α) : Reading α := do
  iterateWithin step ((← get).length + 1) a

/-- Repeats a reading as long as it asks for more. -/
def loop (step : Reading Bool) : Reading Unit :=
  iterate (fun _ => do return if ← step then some () else none) ()

/-- Repeats a reading until the row ends. -/
def toEnd (r : Reading Unit) : Reading Unit := loop do
  if ← atEnd then return false
  r
  return true

/-- Reads phrases up to where a row goes on in some way, with a mark between two of them and maybe one more
behind the last. -/
def upTo (stop : List Token → Bool) (between : String) (r : Reading Unit) : Reading Unit := loop do
  if stop (← get) then return false
  r
  if stop (← get) then return false
  mark between
  return true

/-- Reads phrases with commas between them, and maybe one behind the last, to the end of a row. -/
def listed (r : Reading Unit) : Reading Unit := upTo List.isEmpty "," r

/-- Reads phrases as long as a mark follows, unless the row goes on in some way. -/
def chained (stop : List Token → Bool) (between : String) (r : Reading Unit) : Reading Unit := loop do
  if stop (← get) then return false
  r
  mayMark between

end Reading

end EntitySql
