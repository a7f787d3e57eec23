import EntitySql.Declaration.Grammar.Basic

namespace EntitySql.Grammar

open Reading
open Token hiding name label text literal mark group number

/-- What is asked about a path. -/
structure PathForm where
  /-- Whether the path starts at a type in angle brackets. -/
  ofType : Bool
  lone : Bool
  bare : Bool
  isOpen : Bool
  deriving DecidableEq, Repr

/-- Whether tokens start with a name that a path may start with. -/
def startsSegment (ts : List Token) : Bool := isName ts || isOneOf Keyword.pathWords ts

def startsPath (ts : List Token) : Bool := startsSegment ts || isMark "::" ts || isMark "<" ts

/-- The angle brackets behind a name. -/
inductive Given where
  | nothing
  | empty
  | arguments
  deriving DecidableEq, Repr

section

variable (read : Reader)

def arguments : Reading Given := do
  mark "<"
  let empty ← startsWith (isMark ">")
  upTo (isMark ">") "," (discard (read .argument))
  mark ">"
  return if empty then .empty else .arguments

/-- Whether arguments in angle brackets follow a name. -/
def startsArguments (inExpression : Bool) (ts : List Token) : Bool :=
  (!inExpression && isJust "<" ["<=", "<<="] ts) || (isMark "::" ts && isMark "<" (ts.drop 2))

def segment (inExpression : Bool) : Reading Given := do
  if ← startsWith (isOneOf ["super", "self", "crate", "try"]) then
    anyName
    return .nothing
  if !(← mayWord "Self") then name
  if ← startsWith (startsArguments inExpression) then
    discard (mayMark "::")
    arguments read
  else return .nothing

/-- The names of a path behind others, as long as a path goes on. -/
def segments (inExpression : Bool) (goesOn : List Token → Bool) : PathForm → Reading PathForm :=
  iterate fun form => do
    unless ← startsWith goesOn do return none
    mark "::"
    let given ← segment read inExpression
    return some ⟨form.ofType, false, form.bare && given = .nothing, given != .arguments⟩

/-- A path. It does not go on where `::` stands before round brackets. -/
def path (inExpression : Bool) : Reading PathForm := do
  let absolute ← mayMark "::"
  let given ← segment read inExpression
  segments read inExpression (fun ts => isMark "::" ts && !isGroup .round (ts.drop 2))
    ⟨false, !absolute, given = .nothing, given != .arguments⟩

/-- A path, or the type in angle brackets that it starts at and the path behind that. -/
def anyPath (inExpression : Bool) : Reading PathForm := do
  unless ← mayMark "<" do return ← path read inExpression
  type read
  if ← mayWord "as" then discard (path read false)
  mark ">"
  mark "::"
  let given ← segment read inExpression
  segments read inExpression (isMark "::") ⟨true, false, given = .nothing, given != .arguments⟩

/-- Takes the mark and the brackets of a macro behind its name; tells what the macro is. -/
def macroCall : Reading Shape := do
  mark "!"
  let braced ← startsWith (isGroup .curly)
  anyGroup
  return if braced then .bracedMacro else .plain

end

end EntitySql.Grammar
