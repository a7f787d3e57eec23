import EntitySql.Declaration.Path

namespace EntitySql.Grammar

/-- How tightly an operator binds its operands, from the loosest on. -/
inductive Strength where
  | jump | assignment | range | or | and | comparison | bitOr | bitXor | bitAnd | shift | sum | product | cast
  deriving DecidableEq, Repr

def Strength.rank : Strength → Nat
  | jump => 0
  | assignment => 1
  | range => 2
  | or => 3
  | and => 4
  | comparison => 5
  | bitOr => 6
  | bitXor => 7
  | bitAnd => 8
  | shift => 9
  | sum => 10
  | product => 11
  | cast => 12

/-- What a phrase is, as far as it decides what may follow or hold it. -/
inductive Shape where
  | plain
  /-- A range, which is no operand on the left of an operator. -/
  | range
  | comparison
  /-- An expression that ends with a block and needs no mark behind it. -/
  | block
  /-- A macro with curly brackets, which needs no semicolon behind it. -/
  | bracedMacro
  /-- A pattern for a range without a start or an end. -/
  | openRange
  | path
  | name
  | bound
  deriving DecidableEq, Repr

/-- The kinds of phrases that rules ask for. -/
inductive Phrase where
  /-- An expression; `braces` tells whether the members of a structure may follow a name. -/
  | expression (braces : Bool)
  /-- An operand with the signs before it and what is written behind it. -/
  | operand (braces : Bool)
  /-- Operators of some strength or more with their right sides, behind an operand of some shape. -/
  | operations (braces : Bool) (base : Strength) (left : Shape)
  /-- An expression that may be complete with its first block: a statement, or the end of a case. -/
  | branch
  | statements
  /-- A type; `several` tells whether it may be bounds with plus signs between them. -/
  | type (several : Bool)
  /-- A type, a value or a lifetime that is given for a parameter. -/
  | argument
  /-- A parameter that a declaration or a bound is for. -/
  | parameter
  | pattern
  | patterns
  | item
  | members
  /-- Names that are brought in; `rooted` tells whether `::` may stand before them. -/
  | imports (rooted : Bool)
  deriving DecidableEq, Repr

abbrev Reader := Phrase → Reading Shape

open Reading
open Token hiding name label text literal mark group number

section

variable (read : Reader)

def expression (braces : Bool) : Reading Unit := discard (read (.expression braces))

def type : Reading Unit := discard (read (.type true))

def plainType : Reading Unit := discard (read (.type false))

def patterns : Reading Unit := discard (read .patterns)

def value : Reading Unit := do
  let ts ← get
  if isMark "#" ts && isGroup .square ts.tail then failure
  expression read true

/-- What stands behind the path of an annotation. -/
def given : Reading Unit := do
  if ← startsWith isAnyGroup then anyGroup
  else if ← mayMark "=" then value read

def annotated : Reading Unit := do
  discard Path.readMarked
  given read

def attributes : Reading Bool := do
  let before := (← get).length
  loop do
    unless ← mayMark "#" do return false
    inside .square (annotated read)
    return true
  return (← get).length < before

def innerAttributes : Reading Unit := loop do
  let ts ← get
  unless isMark "#" ts && isMark "!" ts.tail do return false
  mark "#"
  mark "!"
  inside .square (annotated read)
  return true

def block : Reading Unit := inside .curly (discard (read .statements))

/-- A block of statements that may start with attributes. -/
def body : Reading Unit := inside .curly do
  innerAttributes read
  discard (read .statements)

def mayEqual : Reading Unit := do
  if ← mayMark "=" then expression read true

end

/-- Whether tokens after a keyword start with parameters in angle brackets, and not with a type of which a path
goes on. -/
def startsParameters (ts : List Token) : Bool :=
  let inner := ts.tail
  isMark "<" ts &&
    (isMark ">" inner || isMark "#" inner || isWord "const" inner ||
      ((isLabel inner || isName inner) &&
        (isMark ">" inner.tail || isMark "," inner.tail || isColon inner.tail || isMark "=" inner.tail)))

end EntitySql.Grammar
