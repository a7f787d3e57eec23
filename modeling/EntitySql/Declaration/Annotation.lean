import EntitySql.Declaration.Grammar.Rules

namespace EntitySql

/-- What stands behind the path of an annotation. -/
inductive Annotation.Given where
  | nothing
  | group (inner : List Token)
  | value (tokens : List Token)
  deriving Repr

structure Annotation where
  path : Path
  given : Annotation.Given
  deriving Repr

namespace Annotation

def read : Reading Annotation := do
  let path ← Path.readMarked
  let ts ← get
  Grammar.given Grammar.read
  let rest ← get
  match ts.take (ts.length - rest.length) with
  | [.group _ inner] => return ⟨path, .group inner⟩
  | .mark _ _ :: value => return ⟨path, .value value⟩
  | _ => return ⟨path, .nothing⟩

def ofTokens? (ts : List Token) : Option Annotation := read.all? ts

def listOfTokens? : List Token → Option (List Annotation)
  | [] => some []
  | .mark '#' _ :: .group .square inner :: rest => do
    let first ← ofTokens? inner
    let more ← listOfTokens? rest
    some (first :: more)
  | _ => none

/-- The paths of annotations with commas between them, and maybe one behind the last. -/
def paths? (ts : List Token) : Option (List Path) :=
  (Reading.iterate (fun (paths : List Path) => do
    if ← Reading.atEnd then return none
    let found ← read
    unless ← Reading.atEnd do Reading.mark ","
    return some (found.path :: paths)) []).all? ts |>.map List.reverse

end Annotation

end EntitySql
