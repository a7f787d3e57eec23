import EntitySql.Declaration.Grammar.Expression

namespace EntitySql.Grammar

open Reading
open Token hiding name label text literal mark group number

def startsItem (ts : List Token) : Bool :=
  let next := ts.tail
  let isFunction (ts : List Token) : Bool := isOneOf ["unsafe", "extern", "fn"] ts
  isOneOf ["pub", "extern", "use", "fn", "mod", "type", "struct", "enum", "trait", "impl", "macro"] ts ||
    (isWord "crate" ts && !isMark "::" next) ||
    (isWord "static" ts && (isWord "mut" next || isName next)) ||
    (isWord "const" ts &&
      !(isGroup .curly next || isOneOf ["static", "move"] next || isMark "|" next ||
        (isWord "async" next && !isFunction next.tail))) ||
    (isWord "unsafe" ts && !isGroup .curly next) ||
    (isWord "async" ts && isFunction next) ||
    (isWord "union" ts && isName next) ||
    (isWord "auto" ts && isWord "trait" next) ||
    (isWord "default" ts && isOneOf ["unsafe", "impl"] next)

/-- Whether the last of the tokens before some others is a group in curly brackets. -/
def endsInBlock (ts rest : List Token) : Bool :=
  match (ts.take (ts.length - rest.length)).getLast? with
  | some (.group .curly _) => true
  | _ => false

section

variable (read : Reader)

/-- The binding of names to the parts of a value. What is done where the value does not fit is told behind a
value that does not end with a block. -/
def binding : Reading Unit := do
  word "let"
  discard (read .pattern)
  if ← mayMark ":" then type read
  if ← mayMark "=" then
    let ts ← get
    expression read true
    let rest ← get
    if !endsInBlock ts rest && isWord "else" rest then
      word "else"
      block read
  mark ";"

/-- A statement; tells whether it has to be the last of its block. -/
def statement : Reading Bool := do
  discard (attributes read)
  let ts ← get
  match Path.read ts with
  | some (_, .mark '!' joined :: rest) =>
    if isName rest || isWord "try" rest then
      discard (read .item)
      return false
    if isGroup .curly rest && !(isPoint rest.tail || isMark "?" rest.tail) then
      set (Token.mark '!' joined :: rest)
      discard macroCall
      discard (mayMark ";")
      return false
  | _ => pure ()
  if isWord "let" ts then
    binding read
    return false
  if startsItem ts then
    discard (read .item)
    return false
  let shape ← read .branch
  if ← mayMark ";" then return false
  return shape != .block && shape != .bracedMacro

def statementsRule : Reading Shape := do
  loop do
    loop (mayMark ";")
    if ← atEnd then return false
    let last ← statement read
    if ← atEnd then return false
    if last then failure
    return true
  return .plain

end

end EntitySql.Grammar
