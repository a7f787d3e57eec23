import EntitySql.Declaration.Reading

namespace EntitySql

structure Path where
  absolute : Bool
  segments : List String
  deriving DecidableEq, Repr

namespace Path

open Token

def segment : Reading String
  | .name word :: rest => if Keyword.isSegment word then some (word, rest) else none
  | _ => none

def read : Reading Path := do
  let absolute ← Reading.mayMark "::"
  let first ← segment
  let names ← Reading.iterate (fun (names : List String) => do
    if ← Reading.mayMark "::" then return some ((← segment) :: names)
    return none) [first]
  return ⟨absolute, names.reverse⟩

/-- Reads the path of an annotation. The word `unsafe` may stand in its place. -/
def readMarked : Reading Path := do
  if ← Reading.mayWord "unsafe" then return ⟨false, ["unsafe"]⟩
  read

def isJust (p : Path) (name : String) : Bool := p = ⟨false, [name]⟩

end Path

end EntitySql
