import EntitySql.Declaration.Annotation
import EntitySql.Declaration.Token.Reader

namespace EntitySql

inductive Literal where
  | text (s : String)
  | other
  deriving DecidableEq, Repr

def Literal.token : Literal → Token
  | text s => .text s
  | other => .literal

/-- An attribute, for a declaration or for a field. -/
inductive Attribute where
  /-- `orm` with pairs of a key and a literal; the last pair may have a comma after it. -/
  | pairs (items : List (String × Literal)) (trailingComma : Bool)
  | tag (text : String)
  | layout (words : List String)
  | other (text : String)
  deriving DecidableEq, Repr

namespace Attribute

/-- The tokens of an attribute that is a name with some tokens in round brackets. -/
def call (name : String) (inner : List Token) : List Token :=
  [.mark '#' false, .group .square [.name name, .group .round inner]]

def pairTokens? (key : String) (value : Literal) : Option (List Token) :=
  (Token.ofText? key).map (· ++ [.mark '=' false, value.token])

def comma : Token := .mark ',' false

def tokens? : Attribute → Option (List Token)
  | .pairs items trailingComma =>
    (items.mapM fun (key, value) => pairTokens? key value).map fun (parts : List (List Token)) =>
      call "orm" ((parts.intersperse [comma]).flatten ++ if trailingComma then [comma] else [])
  | .tag text => some (call "orm" [.text text])
  | .layout words => Token.ofText? ("#[repr(" ++ String.intercalate ", " words ++ ")]")
  | .other text => Token.ofText? ("#[" ++ text ++ "]")

def annotations? (a : Attribute) : Option (List Annotation) := a.tokens?.bind Annotation.listOfTokens?

end Attribute

inductive DeclarationKind where
  | struct | tuple | unit | enum | union
  deriving DecidableEq, Repr

structure FieldDeclaration where
  /-- The name, after how widely the field is known, if that is told. -/
  name : String
  type : String
  attributes : List Attribute
  deriving DecidableEq, Repr

structure Declaration where
  kind : DeclarationKind
  name : String
  /-- What follows the name: generic parameters in angle brackets, and conditions on types. -/
  generics : String
  attributes : List Attribute
  fields : List FieldDeclaration
  deriving DecidableEq, Repr

/-- The tokens of fields, given those of each one, with commas between them. -/
def FieldDeclaration.joined? (tokens? : FieldDeclaration → Option (List Token))
    (fields : List FieldDeclaration) : Option (List Token) :=
  (fields.mapM tokens?).map fun (parts : List (List Token)) =>
    (parts.intersperse [Attribute.comma]).flatten

def FieldDeclaration.named? (f : FieldDeclaration) : Option (List Token) := do
  let name ← Token.ofText? f.name
  let type ← Token.ofText? f.type
  some (name ++ .mark ':' false :: type)

namespace Declaration

open FieldDeclaration Grammar

/-- A name without the mark that lets it be a keyword. -/
def plainName (name : String) : String :=
  match name.toList with
  | 'r' :: '#' :: rest => String.ofList rest
  | _ => name

def lastName? (ts : List Token) : Option String :=
  ts.reverse.findSome? fun
    | .name text => some text
    | _ => none

def nameOf (text : String) : String :=
  plainName (((Token.ofText? text).bind lastName?).getD text)

/-- The tokens of what follows the name, the attributes of fields left out. -/
def restTokens? (d : Declaration) : Option (List Token) := do
  let generics ← Token.ofText? d.generics
  let body ←
    match d.kind with
    | .struct | .union => (joined? named? d.fields).map fun ts => [.group .curly ts]
    | .enum => (joined? (Token.ofText? ·.name) d.fields).map fun ts => [.group .curly ts]
    | .tuple => (joined? (Token.ofText? ·.type) d.fields).map fun ts => [.group .round ts, .mark ';' false]
    | .unit => some [.mark ';' false]
  some (generics ++ body)

def readRest : DeclarationKind → Reading Unit
  | .struct | .tuple | .unit => do
    parameters read
    structureRest read
  | .enum => do
    parameters read
    enumerationRest read
  | .union => do
    parameters read
    conditions read
    discard (read .members)

/-- Whether the declaration is one of the language, its attributes left out. -/
def isWellFormed (d : Declaration) : Bool :=
  ((Token.ofText? d.name).bind Reading.name.all?).isSome &&
    (d.restTokens?.bind (readRest d.kind).all?).isSome

def isGeneric (d : Declaration) : Bool :=
  match (Token.ofText? d.generics).bind (Token.after "<") with
  | some rest => !Token.isMark ">" rest
  | none => false

end Declaration

end EntitySql
