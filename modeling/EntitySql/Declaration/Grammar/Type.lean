import EntitySql.Declaration.Grammar.Parameter

namespace EntitySql.Grammar

open Reading
open Token hiding name label text literal mark group number

section

variable (read : Reader)

/-- The type that comes of a function, if it is told. -/
def result (several : Bool) : Reading Unit := do
  if ← mayMark "->" then discard (read (.type several))

/-- The convention by which a function is called, if it is told. -/
def convention : Reading Unit := do
  if ← mayWord "extern" then discard (ifStarts isText text)

/-- A parameter of the type of functions, maybe with a name. The first one may be `self`. -/
def functionParameter (isFirst : Bool) : Reading Unit := do
  let mutSelf (ts : List Token) : Bool := isFirst && isWord "mut" ts && isWord "self" ts.tail
  let changes ← ifStarts mutSelf (word "mut")
  let ts ← get
  let isSelf := isFirst && isWord "self" ts
  let named := (isName ts || isWord "_" ts || isSelf) && isColon ts.tail
  if named then
    anyName
    mark ":"
  if !(named && isSelf) && mutSelf (← get) then
    word "mut"
    word "self"
  else if changes && !named then word "self"
  else type read

/-- Whether any further arguments follow, maybe with a name. -/
def startsFurther (ts : List Token) : Bool :=
  isMark "..." ts || ((isName ts || isWord "_" ts) && isMark ":" ts.tail && isMark "..." (ts.drop 2))

def furtherArguments : Reading Unit := do
  unless ← mayMark "..." do
    nameOrStroke
    mark ":"
    mark "..."
  discard (mayMark ",")

def functionParameters : Reading Unit :=
  discard <| iterate (fun (isFirst : Bool) => do
    if ← atEnd then return none
    discard (attributes read)
    if ← startsWith startsFurther then
      furtherArguments
      return none
    functionParameter read isFirst
    if ← atEnd then return none
    mark ","
    return some false) true

def functionType : Reading Unit := do
  skipWord "unsafe"
  convention
  word "fn"
  inside .round (functionParameters read)
  result read false

/-- The bounds that follow a type behind plus signs; tells whether there is a plus sign. -/
def furtherBounds : Reading Bool := do
  let before := (← get).length
  loop do
    unless ← mayMark "+" do return false
    unless ← startsWith (startsBound .object) do return false
    discard (bound read .object)
    return true
  return (← get).length < before

/-- The bounds that follow a bound in round brackets, each behind a plus sign. -/
def boundsBehind : Reading Bool := do
  let before := (← get).length
  loop do
    unless ← mayMark "+" do return false
    discard (bound read .object)
    return true
  return (← get).length < before

/-- The inside of round brackets: types of which there may be any number, or one that is only held together. -/
def roundType : Reading Shape := do
  if ← atEnd then return .plain
  if ← startsWith isLabel then
    bounds read true .object
    return .plain
  if ← startsWith (isMark "?") then
    trait read .object
    return .bound
  let shape ← read (.type true)
  unless ← mayMark "," do return shape
  listed (type read)
  return .plain

/-- A type in round brackets. If it is a bound, more may follow. -/
def heldType (several : Bool) : Reading Shape := do
  let optional ← startsWith fun
    | .group .round inner :: _ => isMark "?" inner
    | _ => false
  let shape ← inside .round (roundType read)
  if optional then return if ← boundsBehind read then .plain else .bound
  if several && (shape = .path || shape = .name || shape = .bound) then discard (boundsBehind read)
  return .plain

/-- A type that is a path, a macro, or bounds of which the first is a path. -/
def pathType (several bound : Bool) : Reading Shape := do
  let form ← anyPath read false
  if form.ofType then return .plain
  let ts ← get
  if isCall ts && form.bare then
    discard macroCall
    return .plain
  if several && isMark "+" ts then
    discard (furtherBounds read)
    return .plain
  return if bound then .bound else if form.lone then .name else .path

/-- A type in square brackets: any number of elements, or a fixed one. -/
def squareType : Reading Unit := do
  type read
  if ← mayMark ";" then expression read true

def pointer : Reading Unit := do
  mark "*"
  one (isOneOf ["const", "mut"])
  plainType read

def reference : Reading Unit := do
  mark "&"
  discard (ifStarts isLabel label)
  skipWord "mut"
  plainType read

/-- What the parameters that a type is for may stand before. -/
def startsBoundType (ts : List Token) : Bool := startsSegment ts || isOneOf ["fn", "unsafe", "extern"] ts

def typeRule (several : Bool) : Reading Shape := do
  let isBound ← ifStarts (isWord "for") do
    binder read
    unless ← startsWith startsBoundType do failure
  let ts ← get
  if isGroup .round ts then heldType read several
  else if isOneOf ["fn", "unsafe", "extern"] ts then
    functionType read
    return .plain
  else if startsPath ts then pathType read several isBound
  else
    if isWord "dyn" ts then
      word "dyn"
      discard (mayMark "*")
      bounds read several .object
    else if isGroup .square ts then inside .square (squareType read)
    else if isMark "*" ts then pointer read
    else if isMark "&" ts then reference read
    else if isMark "!" ts then mark "!"
    else if isWord "impl" ts then
      word "impl"
      bounds read several .hidden
    else if isWord "_" ts then word "_"
    else if isLabel ts then bounds read true .object
    else failure
    return .plain

end

end EntitySql.Grammar
