import EntitySql.Declaration.Grammar.Type
import EntitySql.Declaration.Grammar.Pattern

namespace EntitySql.Grammar

open Reading
open Token hiding name label text literal mark group number

/-- How widely an item is known, if that is told; tells whether it is. -/
def visibility : Reading Bool := do
  unless ← mayWord "pub" do return false
  match ← get with
  | .group .round inner :: rest =>
    if inner.length = 1 && isOneOf ["crate", "self", "super"] inner then set rest
    else if isWord "in" inner then
      match Path.read.all? inner.tail with
      | some _ => set rest
      | none => failure
  | _ => pure ()
  return true

def afterWord (w : String) (ts : List Token) : List Token := if isWord w ts then ts.tail else ts

/-- Whether a function follows, with the words that may stand before it; `safely` tells whether `safe` is
one of them. -/
def startsSignature (safely : Bool) (ts : List Token) : Bool :=
  let ts := afterWord "async" (afterWord "const" ts)
  let ts := if safely && isWord "safe" ts then ts.tail else afterWord "unsafe" ts
  let ts := if isWord "extern" ts then (if isText ts.tail then ts.drop 2 else ts.tail) else ts
  isWord "fn" ts

def startsMacro (ts : List Token) : Bool :=
  isName ts || isOneOf ["self", "super", "crate"] ts || isMark "::" ts

section

variable (read : Reader)

/-- The parameter by which a method knows its value. -/
def receiver : Reading Unit := do
  let referred ← ifStarts (isMark "&") do
    mark "&"
    discard (ifStarts isLabel label)
  skipWord "mut"
  word "self"
  if !referred && (← mayMark ":") then type read

/-- Any further arguments behind a pattern or alone; a comma follows unless they are the last. -/
def variadic : Reading Unit := do
  mark "..."
  unless ← atEnd do mark ","

/-- A parameter of a function with its type; tells whether it is not a row of further arguments. -/
def typedParameter : Reading Bool := do
  let ts ← get
  if isName ts && isMark "<" ts.tail then
    type read
    return true
  discard (read .pattern)
  mark ":"
  if ← startsWith (isMark "...") then
    variadic
    return false
  type read
  return true

/-- The parameters of a function. Only the first one may be a receiver. -/
def functionInputs : Reading Unit :=
  discard <| iterate (fun (isFirst : Bool) => do
    if ← atEnd then return none
    discard (attributes read)
    if ← startsWith (isMark "...") then
      variadic
      return none
    match receiver read (← get) with
    | some (_, rest) =>
      unless isFirst do failure
      set rest
    | none => unless ← typedParameter read do return none
    if ← atEnd then return none
    mark ","
    return some false) true

/-- A function up to its block; `safely` tells whether it may be said to be safe. -/
def signature (safely : Bool) : Reading Unit := do
  skipWord "const"
  skipWord "async"
  unless (← mayWord "unsafe") || !safely do skipWord "safe"
  convention
  word "fn"
  name
  parameters read
  inside .round (functionInputs read)
  result read true
  conditions read

/-- The block of a function, or a semicolon in its place. -/
def bodyOrEnd : Reading Unit := do
  unless ← mayMark ";" do body read

/-- A member with its name and its type. One without a name may have members of its own. -/
def namedMember : Reading Unit := do
  discard (attributes read)
  discard visibility
  let ts ← get
  nameOrStroke
  mark ":"
  let inner ← get
  if isWord "_" ts && (isWord "struct" inner || (isWord "union" inner && isGroup .curly inner.tail)) then
    anyName
    discard (read .members)
  else type read

def unnamedMember : Reading Unit := do
  discard (attributes read)
  discard visibility
  type read

def membersRule : Reading Shape := do
  inside .curly (listed (namedMember read))
  return .plain

def unnamedMembers : Reading Unit := inside .round (listed (unnamedMember read))

/-- What follows the name and the parameters of a structure. -/
def structureRest : Reading Unit := do
  if ← startsWith (isGroup .round) then
    unnamedMembers read
    conditions read
    mark ";"
  else
    conditions read
    if ← startsWith (isGroup .curly) then discard (read .members) else mark ";"

/-- A case of an enumeration with its members and its number. -/
def enumerated : Reading Unit := do
  discard (attributes read)
  discard visibility
  name
  let ts ← get
  if isGroup .curly ts then discard (read .members)
  else if isGroup .round ts then unnamedMembers read
  mayEqual read

/-- What follows the name and the parameters of an enumeration. -/
def enumerationRest : Reading Unit := do
  conditions read
  inside .curly (listed (enumerated read))

/-- Where the conditions of a name for a type stand. -/
inductive ConditionPlace where
  | before
  | behind
  | either
  deriving DecidableEq, Repr

def typeName (place : ConditionPlace) : Reading Unit := do
  word "type"
  name
  parameters read
  if ← mayMark ":" then
    upTo (fun ts => isWord "where" ts || isMark "=" ts || isMark ";" ts) "+" (discard (bound read .named))
  let early ← startsWith fun ts => place != .behind && isWord "where" ts
  if early then conditions read
  if ← mayMark "=" then type read
  if place = .behind || (place = .either && !early) then conditions read
  mark ";"

def constantItem : Reading Unit := do
  word "const"
  nameOrStroke
  parameters read
  mark ":"
  type read
  mayEqual read
  conditions read
  mark ";"

def static : Reading Unit := do
  word "static"
  skipWord "mut"
  name
  if ← startsWith (isMark "=") then mayEqual read
  else
    mark ":"
    type read
    mayEqual read
  mark ";"

/-- A macro that is called where an item stands. It may be given a name. -/
def macroItem : Reading Unit := do
  discard Path.read
  mark "!"
  discard (ifStarts (fun ts => isWord "try" ts || isName ts) anyName)
  let braced ← startsWith (isGroup .curly)
  anyGroup
  unless braced do mark ";"

/-- A macro that is called among the items of a trait or an implementation. -/
def macroMember : Reading Unit := do
  discard Path.read
  if (← macroCall) != .bracedMacro then mark ";"

def holding (r : Reading Unit) : Reading Unit := inside .curly do
  innerAttributes read
  toEnd r

def traitItem : Reading Unit := do
  discard (attributes read)
  let told ← visibility
  let isDefault ← mayWord "default"
  let ts ← get
  if startsSignature false ts then
    signature read false
    bodyOrEnd read
  else if isWord "const" ts then constantItem read
  else if isWord "type" ts then typeName read .behind
  else if !told && !isDefault && startsMacro ts then macroMember
  else failure

def implementedItem : Reading Unit := do
  discard (attributes read)
  let told ← visibility
  let isDefault ← ifStarts (fun ts => isWord "default" ts && !isMark "!" ts.tail) (word "default")
  let ts ← get
  if startsSignature false ts then
    signature read false
    bodyOrEnd read
  else if isWord "const" ts then constantItem read
  else if isWord "type" ts then typeName read .behind
  else if !told && !isDefault && startsMacro ts then macroMember
  else failure

def foreignItem : Reading Unit := do
  discard (attributes read)
  let told ← visibility
  let ts ← get
  if startsSignature true ts then
    signature read true
    bodyOrEnd read
  else if isWord "static" ts || (isOneOf ["unsafe", "safe"] ts && isWord "static" ts.tail) then
    discard (ifStarts (isOneOf ["unsafe", "safe"]) anyName)
    word "static"
    skipWord "mut"
    name
    mark ":"
    type read
    mayEqual read
    mark ";"
  else if isWord "type" ts then typeName read .either
  else if !told && startsMacro ts then macroMember
  else failure

/-- What follows the name and the parameters of a trait. -/
def traitRest : Reading Unit := do
  let stop (ts : List Token) : Bool := isWord "where" ts || isGroup .curly ts
  if ← mayMark ":" then upTo stop "+" (discard (bound read .named))
  conditions read
  holding read (traitItem read)

def traitDeclaration : Reading Unit := do
  skipWord "unsafe"
  skipWord "auto"
  word "trait"
  name
  parameters read
  traitRest read

def traitOrBounds : Reading Unit := do
  word "trait"
  name
  parameters read
  unless ← mayMark "=" do return ← traitRest read
  upTo (fun ts => isWord "where" ts || isMark ";" ts) "+" (discard (bound read .named))
  conditions read
  mark ";"

/-- An implementation. Only one of a trait may say that there is none. -/
def implementation : Reading Unit := do
  skipWord "default"
  skipWord "unsafe"
  word "impl"
  if ← startsWith startsParameters then parameters read
  let ts ← get
  if isWord "const" ts || (isMark "?" ts && isWord "const" ts.tail) then
    discard (mayMark "?")
    word "const"
  let denied ← ifStarts (fun ts => isMark "!" ts && !isGroup .curly ts.tail) (mark "!")
  type read
  if ← mayWord "for" then type read
  else if denied then failure
  conditions read
  holding read (implementedItem read)

def foreignItems : Reading Unit := do
  skipWord "unsafe"
  word "extern"
  discard (ifStarts isText text)
  holding read (foreignItem read)

def moduleItem : Reading Unit := do
  skipWord "unsafe"
  word "mod"
  one fun ts => isName ts || isWord "try" ts
  unless ← mayMark ";" do holding read (discard (read .item))

def rename : Reading Unit := do
  if ← mayWord "as" then nameOrStroke

/-- Names that are brought in; `rooted` tells whether `::` may stand before those in brackets. -/
def importsRule (rooted : Bool) : Reading Shape := do
  let ts ← get
  if isName ts || isOneOf ["self", "super", "crate", "try"] ts then
    anyName
    if ← mayMark "::" then discard (read (.imports false)) else rename
  else if isMark "*" ts then mark "*"
  else
    inside .curly <| listed do
      let root ← if rooted then mayMark "::" else pure false
      discard (read (.imports (rooted && !root)))
  return .plain

def importItem : Reading Unit := do
  word "use"
  let root ← mayMark "::"
  discard (read (.imports !root))
  mark ";"

def package : Reading Unit := do
  word "extern"
  word "crate"
  one fun ts => isName ts || isWord "self" ts
  rename
  mark ";"

def macroDeclaration : Reading Unit := do
  word "macro"
  name
  discard (ifStarts (isGroup .round) (group .round))
  group .curly

/-- A word with a name, parameters and what follows them. -/
def declared (w : String) (r : Reading Unit) : Reading Unit := do
  word w
  name
  parameters read
  r

def itemRule : Reading Shape := do
  discard (attributes read)
  let told ← visibility
  let ts ← get
  let next := ts.tail
  if startsSignature false ts then
    signature read false
    bodyOrEnd read
  else if isWord "extern" ts then
    if isWord "crate" next then package
    else
      if told then failure
      foreignItems read
  else if isWord "use" ts then importItem read
  else if isWord "static" ts then static read
  else if isWord "const" ts then constantItem read
  else if isWord "unsafe" ts then
    if isWord "trait" next || (isWord "auto" next && isWord "trait" next.tail) then traitDeclaration read
    else if isWord "impl" next then implementation read
    else if isWord "mod" next then moduleItem read
    else
      if told then failure
      foreignItems read
  else if isWord "mod" ts then moduleItem read
  else if isWord "type" ts then typeName read .before
  else if isWord "struct" ts then declared read "struct" (structureRest read)
  else if isWord "enum" ts then declared read "enum" (enumerationRest read)
  else if isWord "union" ts && isName next then
    declared read "union" do
      conditions read
      discard (read .members)
  else if isWord "trait" ts then traitOrBounds read
  else if isWord "auto" ts && isWord "trait" next then traitDeclaration read
  else if isWord "impl" ts || (isWord "default" ts && !isMark "!" next) then implementation read
  else if isWord "macro" ts then macroDeclaration
  else if !told && startsMacro ts then macroItem
  else failure
  return .plain

end

end EntitySql.Grammar
