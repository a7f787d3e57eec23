import EntitySql.Declaration.Grammar.Parameter

namespace EntitySql.Grammar

open Reading
open Token hiding name label text literal mark group number

/-- The dots of a range; tells whether it has to have an end. -/
def rangeDots : Reading Bool := do
  if ← mayMark "..=" then return true
  if ← startsWith (isMark "...") then failure
  mark ".."
  return false

/-- The dots of a range in a pattern, where three of them may stand for two and an equals sign. -/
def patternDots : Reading Bool := do
  if ← mayMark "..." then return true
  rangeDots

/-- A member of a structure: a name, or a place. Tells whether it is a name. -/
def member : Reading Bool
  | .number n :: rest => if n.isPlace then some (false, rest) else none
  | ts => (name ts).map fun (_, rest) => (true, rest)

section

variable (read : Reader)

def endsPatternRange (ts : List Token) : Bool :=
  ts.isEmpty || isMark "|" ts || isMark "=" ts || isColon ts || isMark "," ts || isMark ";" ts || isWord "if" ts

/-- The start or the end of a range in a pattern. -/
def patternBound : Reading Unit := do
  let ts ← get
  if isLiteral ts then literal
  else if startsPath ts then discard (anyPath read true)
  else
    word "const"
    body read

/-- The end of a range in a pattern behind its dots, if it has one; tells whether it has. -/
def patternEnd (required : Bool) : Reading Bool := do
  if ← startsWith endsPatternRange then
    if required then failure
    return false
  patternBound read
  return true

def rangeBehind : Reading Shape := do
  let required ← patternDots
  return if ← patternEnd read required then .plain else .openRange

/-- A range without a start, or the sign of all that is left out. -/
def rangeTo : Reading Shape := do
  let required ← rangeDots
  return if ← patternEnd read required then .openRange else .plain

/-- The pattern of a member. A name may stand for itself, and then with a sign of how it is taken. -/
def memberPattern : Reading Unit := do
  let boxed ← mayWord "box"
  let referred ← mayWord "ref"
  let changed ← mayWord "mut"
  if boxed || referred || changed then name
  else
    let named ← member
    if !named || (← startsWith (isMark ":")) then
      mark ":"
      patterns read

/-- The patterns of members. Two dots stand for those that are left out. -/
def memberPatterns : Reading Unit := loop do
  if ← atEnd then return false
  discard (attributes read)
  if ← mayMark ".." then return false
  memberPattern read
  if ← atEnd then return false
  mark ","
  return true

/-- The patterns of elements. Ranges among them have a start and an end unless they are held together. -/
def elementPattern : Reading Unit := do
  if (← read .patterns) = .openRange then failure

/-- What a path starts: a macro, the pattern of a structure, a range or a constant. -/
def pathPattern : Reading Shape := do
  let form ← anyPath read true
  let ts ← get
  if !form.ofType && isCall ts && form.bare then
    discard macroCall
    return .plain
  if isGroup .curly ts then inside .curly (memberPatterns read)
  else if isGroup .round ts then inside .round (listed (patterns read))
  else if isMark ".." ts then return ← rangeBehind read
  return .plain

def namePattern : Reading Unit := do
  skipWord "ref"
  skipWord "mut"
  one fun ts => isName ts || isWord "self" ts
  if ← mayMark "@" then discard (read .pattern)

def referencePattern : Reading Unit := do
  mark "&"
  skipWord "mut"
  discard (read .pattern)

def constantPattern : Reading Shape := do
  patternBound read
  if ← startsWith (isMark "..") then rangeBehind read else return .plain

/-- Whether tokens start with a path, and not just with a name for what fits. -/
def startsPathPattern (ts : List Token) : Bool :=
  let behind := ts.tail
  (isName ts && (isMark "::" behind || isMark "!" behind || isMark ".." behind ||
    isGroup .curly behind || isGroup .round behind)) ||
  (isWord "self" ts && isMark "::" behind) ||
  isMark "::" ts || isMark "<" ts || isOneOf ["Self", "super", "crate"] ts

def patternRule : Reading Shape := do
  let ts ← get
  if startsPathPattern ts then pathPattern read
  else if isMark "-" ts || isLiteral ts || isWord "const" ts then constantPattern read
  else if isMark ".." ts then rangeTo read
  else
    if isWord "_" ts then word "_"
    else if isWord "box" ts then
      word "box"
      discard (read .pattern)
    else if isOneOf ["ref", "mut", "self"] ts || isName ts then namePattern read
    else if isMark "&" ts then referencePattern read
    else if isGroup .round ts then inside .round (listed (patterns read))
    else inside .square (listed (elementPattern read))
    return .plain

/-- Patterns with strokes between them, and maybe one before the first. -/
def patternsRule : Reading Shape := do
  let stroke ← mayMark "|"
  let shape ← read .pattern
  let several ← startsWith isAlternative
  loop do
    unless ← startsWith isAlternative do return false
    mark "|"
    discard (read .pattern)
    return true
  return if stroke || several then .plain else shape

end

end EntitySql.Grammar
