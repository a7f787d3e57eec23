import EntitySql.Declaration.Grammar.Pattern
import EntitySql.Declaration.Grammar.Type

namespace EntitySql.Grammar

open Reading
open Token hiding name label text literal mark group number

/-- The operators between two operands; those of more marks come first. -/
def operators : List (String × Strength) :=
  [("+=", .assignment), ("-=", .assignment), ("*=", .assignment), ("/=", .assignment), ("%=", .assignment),
    ("^=", .assignment), ("&=", .assignment), ("|=", .assignment), ("<<=", .assignment), (">>=", .assignment),
    ("&&", .and), ("||", .or), ("<<", .shift), (">>", .shift), ("==", .comparison), ("<=", .comparison),
    ("!=", .comparison), (">=", .comparison), ("+", .sum), ("-", .sum), ("*", .product), ("/", .product),
    ("%", .product), ("^", .bitXor), ("&", .bitAnd), ("|", .bitOr), ("<", .comparison), (">", .comparison)]

/-- The operator at the start of some tokens, and the tokens after it. -/
def operator? (ts : List Token) : Option (Strength × List Token) :=
  operators.findSome? fun (marks, strength) => (after marks ts).map fun rest => (strength, rest)

def isAssignment : List Token → Bool := isJust "=" ["=>"]

/-- How tightly what follows an operand binds it. -/
def strengthOf (ts : List Token) : Strength :=
  match operator? ts with
  | some (strength, _) => strength
  | none =>
    if isAssignment ts then .assignment
    else if isMark ".." ts then .range
    else if isWord "as" ts then .cast
    else .jump

/-- Marks before which a range may end without a bound. -/
def rangeStops : List String :=
  [",", ";", "?", "=>", "=", "+", "/", "%", "^", ">", "<=", "!=", "-=", "*=", "&=", "|=", "<<="]

def endsRange (braces : Bool) (ts : List Token) : Bool :=
  ts.isEmpty || rangeStops.any (isMark · ts) || isPoint ts || isWord "as" ts ||
    (!braces && isGroup .curly ts)

/-- Whether an expression follows, where there need not be one. -/
def startsExpression (ts : List Token) : Bool :=
  (isAnyName ts && !isWord "as" ts) || isAnyGroup ts || isLiteral ts || isCall ts ||
    isJust "-" ["-=", "->"] ts || isJust "*" ["*="] ts || isJust "|" ["|="] ts || isJust "&" ["&="] ts ||
    isMark ".." ts || isJust "<" ["<=", "<<="] ts || isMark "::" ts || isLabel ts || isMark "#" ts

/-- Whether what is written behind an operand follows a type that a value is taken as. -/
def startsBehind (ts : List Token) : Bool :=
  isPoint ts || isMark "?" ts || isGroup .square ts || isGroup .round ts

def startsFunction (ts : List Token) : Bool :=
  isMark "|" ts || isOneOf ["move", "static"] ts ||
    (isWord "for" ts && startsParameters ts.tail) ||
    (isWord "const" ts && !isGroup .curly ts.tail) ||
    (isWord "async" ts && (isMark "|" ts.tail || isWord "move" ts.tail))

def startsLater (ts : List Token) : Bool :=
  isWord "async" ts && (isGroup .curly ts.tail || (isWord "move" ts.tail && isGroup .curly (ts.drop 2)))

section

variable (read : Reader)

/-- The right side of an operator of some strength: an operand with the operators that bind it more tightly. An
assignment may follow an assignment. -/
def rightSide (braces : Bool) (strength : Strength) : Reading Unit := do
  let shape ← read (.operand braces)
  discard <| iterate (fun (shape : Shape) => do
    let ts ← get
    let next := strengthOf ts
    unless strength.rank < next.rank || (next = strength && strength = .assignment) do return none
    let shape ← read (.operations braces next shape)
    return if (← get).length < ts.length then some shape else none) shape

def rangeEnd (braces : Bool) : Reading Unit := do
  let required ← rangeDots
  if !required && (← startsWith (endsRange braces)) then return
  rightSide read braces .range

/-- The operators of some strength or more behind an operand, with their right sides. -/
def operationsRule (braces : Bool) (base : Strength) (left : Shape) : Reading Shape := do
  let ts ← get
  if left = .range then return left
  match operator? ts with
  | some (strength, rest) =>
    if strength.rank < base.rank then return left
    if strength = .comparison && left = .comparison then failure
    set rest
    rightSide read braces strength
    read (.operations braces base (if strength = .comparison then .comparison else .plain))
  | none =>
    if base.rank ≤ Strength.assignment.rank && isAssignment ts then
      mark "="
      rightSide read braces .assignment
      read (.operations braces base .plain)
    else if base.rank ≤ Strength.range.rank && isMark ".." ts then
      rangeEnd read braces
      read (.operations braces base .range)
    else if isWord "as" ts then
      word "as"
      plainType read
      if ← startsWith startsBehind then failure
      read (.operations braces base .plain)
    else return left

def values : Reading Unit := inside .round (listed (expression read true))

/-- A member behind its point. A real number may stand for two places. -/
def memberBehind : Reading Unit := do
  match ← get with
  | .number (.real text) :: rest =>
    match Numeral.places? text with
    | some false =>
      set rest
      return
    | some true => set rest
    | none => failure
  | _ => pure ()
  if ← mayWord "await" then return
  if ← member then
    let typed ← ifStarts (isMark "::") do
      mark "::"
      discard (arguments read)
    if typed || (← startsWith (isGroup .round)) then values read

/-- What is written behind an operand: arguments, indices, members and question marks. -/
def behind : Shape → Reading Shape :=
  iterate fun shape => do
    let ts ← get
    if isGroup .round ts then values read
    else if isGroup .square ts then inside .square (expression read true)
    else if shape != .range && isPoint ts then
      mark "."
      memberBehind read
    else if shape != .range && isMark "?" ts then mark "?"
    else return none
    return some .plain

/-- The members of a structure with their values. Behind two dots may stand what the others are taken from. -/
def memberValues : Reading Unit := loop do
  if ← atEnd then return false
  if ← mayMark ".." then
    unless ← atEnd do expression read true
    return false
  discard (attributes read)
  let named ← member
  if !named || (← startsWith (isMark ":")) then
    mark ":"
    expression read true
  if ← atEnd then return false
  mark ","
  return true

/-- What a path starts: a macro, a structure or a name. -/
def pathValue (braces : Bool) : Reading Shape := do
  let form ← anyPath read true
  let ts ← get
  if !form.ofType && isCall ts && form.bare then macroCall
  else
    if braces && isGroup .curly ts then inside .curly (memberValues read)
    return .plain

/-- The inside of an array: its elements, or one and how often it stands there. -/
def elements : Reading Unit := do
  if ← atEnd then return
  expression read true
  if ← mayMark ";" then expression read true
  else if ← mayMark "," then listed (expression read true)

def functionArgument : Reading Unit := do
  discard (attributes read)
  discard (read .pattern)
  if ← mayMark ":" then type read

def function (braces : Bool) : Reading Unit := do
  discard (ifStarts (isWord "for") (binder read))
  skipWord "const"
  skipWord "static"
  skipWord "async"
  skipWord "move"
  mark "|"
  upTo (isMark "|") "," (functionArgument read)
  mark "|"
  if ← mayMark "->" then
    type read
    block read
  else expression read braces

/-- Leaves a block with a value, if it is told. -/
def leave (braces : Bool) : Reading Unit := do
  word "break"
  if ← ifStarts isLabel label then
    if ← startsWith (isMark ":") then failure
  let ts ← get
  if startsExpression ts && (braces || !isGroup .curly ts) then expression read braces

def mayValue : Reading Unit := do
  if ← startsWith startsExpression then expression read true

def conditional : Reading Unit := loop do
  word "if"
  expression read false
  block read
  unless ← mayWord "else" do return false
  if ← startsWith (isWord "if") then return true
  block read
  return false

def fitting (braces : Bool) : Reading Unit := do
  word "let"
  patterns read
  mark "="
  let shape ← read (.operand braces)
  discard (read (.operations braces .comparison shape))

/-- A case of a match. Behind it stands a comma, unless it is the last or ends with a block. -/
def case : Reading Unit := do
  discard (attributes read)
  patterns read
  if ← mayWord "if" then expression read true
  mark "=>"
  let shape ← read .branch
  if shape = .block || (← atEnd) then discard (mayMark ",")
  else mark ","

def cases : Reading Unit := do
  word "match"
  expression read false
  inside .curly do
    innerAttributes read
    toEnd (case read)

/-- A block that is run for each element of a value. -/
def forEach : Reading Unit := do
  word "for"
  patterns read
  word "in"
  expression read false
  body read

def labelled : Reading Unit := do
  let ts ← get
  if isWord "while" ts then
    word "while"
    expression read false
    body read
  else if isWord "for" ts then forEach read
  else
    skipWord "loop"
    body read

def startsBlock (ts : List Token) : Bool :=
  isOneOf ["if", "match", "while", "loop", "unsafe"] ts || isLabel ts || isGroup .curly ts ||
    (isWord "for" ts && !startsParameters ts.tail) ||
    (isOneOf ["try", "const"] ts && isGroup .curly ts.tail)

def blockValue : Reading Shape := do
  let ts ← get
  if isWord "if" ts then conditional read
  else if isWord "match" ts then cases read
  else if isWord "try" ts then
    word "try"
    block read
  else if isOneOf ["unsafe", "const"] ts then
    anyName
    body read
  else
    if ← ifStarts isLabel label then mark ":"
    labelled read
  return .block

def operandAlone (braces : Bool) : Reading Shape := do
  let ts ← get
  if startsLater ts then
    word "async"
    skipWord "move"
    block read
    return .plain
  else if startsFunction ts then
    function read braces
    return .plain
  else if startsBlock ts then blockValue read
  else if isWord "builtin" ts && isMark "#" ts.tail then
    anyName
    mark "#"
    name
    group .round
    return .plain
  else if isLiteral ts then
    literal
    return .plain
  else if startsPath ts || (isWord "try" ts && (isMark "!" ts.tail || isMark "::" ts.tail)) then
    pathValue read braces
  else if isMark ".." ts then
    rangeEnd read braces
    return .range
  else
    if isGroup .round ts then values read
    else if isGroup .square ts then inside .square (elements read)
    else if isWord "break" ts then leave read braces
    else if isWord "continue" ts then
      word "continue"
      discard (ifStarts isLabel label)
    else if isOneOf ["return", "yield"] ts then
      anyName
      mayValue read
    else if isWord "become" ts then
      word "become"
      expression read true
    else if isWord "let" ts then fitting read braces
    else word "_"
    return .plain

/-- An operand with the signs before it and what is written behind it. -/
def operandRule (braces : Bool) : Reading Shape := do
  let attributed ← attributes read
  let ts ← get
  if isMark "&" ts then
    mark "&"
    let ts ← get
    let raw := isWord "raw" ts && isOneOf ["mut", "const"] ts.tail
    if raw then
      anyName
      anyName
    else skipWord "mut"
    discard (read (.operand braces))
    return .plain
  else if isMark "*" ts || isMark "!" ts || isMark "-" ts then
    one fun _ => true
    discard (read (.operand braces))
    return .plain
  else
    let shape ← operandAlone read braces
    let shape ← behind read shape
    if attributed && shape = .range then failure
    return shape

def expressionRule (braces : Bool) : Reading Shape := do
  let shape ← read (.operand braces)
  read (.operations braces .jump shape)

/-- An expression that may be complete with its first block. It goes on only behind a point or a question
mark. -/
def branchRule : Reading Shape := do
  discard (attributes read)
  if !(← startsWith startsBlock) then return ← read (.expression true)
  let shape ← blockValue read
  unless ← startsWith fun ts => isPoint ts || isMark "?" ts do return shape
  let shape ← behind read shape
  read (.operations true .jump shape)

end

end EntitySql.Grammar
