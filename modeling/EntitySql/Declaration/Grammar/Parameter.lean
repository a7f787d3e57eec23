import EntitySql.Declaration.Grammar.Bound

namespace EntitySql.Grammar

open Reading
open Token hiding name label text literal mark group number

section

variable (read : Reader)

def constant : Reading Unit := do
  let ts ← get
  if isLiteral ts then literal
  else if isName ts then name
  else body read

def startsConstant (ts : List Token) : Bool := isLiteral ts || isGroup .curly ts

def constantOrType : Reading Unit := do
  if ← startsWith startsConstant then constant read else type read

/-- What is given for a parameter. Behind a name may stand what it has to equal, or its bounds. -/
def argument : Reading Unit := do
  let ts ← get
  if isLabel ts && !isMark "+" ts.tail then label
  else if startsConstant ts then constant read
  else if (← read (.type true)) = .name then
    if ← mayMark "=" then constantOrType read
    else if ← mayMark ":" then namedBounds read fun ts => isMark "," ts || isMark ">" ts

/-- Whether a row of parameters goes on behind the bounds of one. -/
def endsParameter (ts : List Token) : Bool := ts.isEmpty || isMark "," ts || isMark ">" ts

def lifetimeParameter : Reading Unit := do
  label
  if ← mayMark ":" then chained endsParameter "+" label

/-- A type with its bounds, and the type that it is if none is given. -/
def typeParameter : Reading Unit := do
  name
  if ← mayMark ":" then namedBounds read fun ts => endsParameter ts || isMark "=" ts
  if ← mayMark "=" then type read

/-- A constant with its type, and the value that it has if none is given. -/
def constantParameter : Reading Unit := do
  word "const"
  name
  mark ":"
  type read
  if ← mayMark "=" then constant read

def parameter : Reading Unit := do
  discard (attributes read)
  let ts ← get
  if isLabel ts then lifetimeParameter
  else if isWord "const" ts then constantParameter read
  else typeParameter read

/-- The parameters of a declaration in angle brackets, if there are any. -/
def parameters : Reading Unit := do
  unless ← mayMark "<" do return
  upTo (isMark ">") "," do
    discard (attributes read)
    if ← startsWith (isWord "_") then anyName else parameter read
  mark ">"

def endsConditions (ts : List Token) : Bool :=
  ts.isEmpty || isGroup .curly ts || isMark "," ts || isMark ";" ts || isColon ts || isMark "=" ts

/-- A condition: the lifetimes that one outlives, or the bounds of a type. -/
def condition : Reading Unit := do
  let ts ← get
  if isLabel ts && isMark ":" ts.tail then
    label
    mark ":"
    chained endsConditions "+" label
  else
    discard (ifStarts (isWord "for") (binder read))
    type read
    mark ":"
    namedBounds read endsConditions

def conditions : Reading Unit := do
  if ← mayWord "where" then chained endsConditions "," (condition read)

end

end EntitySql.Grammar
