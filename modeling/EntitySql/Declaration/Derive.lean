import EntitySql.Declaration.Basic
import EntitySql.Declaration.Annotation
import EntitySql.Text.ConstantName

namespace EntitySql

/-- Why nothing can be derived from a declaration. -/
inductive Underivable where
  | generic
  | unnamedFields
  | notStruct
  | packed
  /-- The attribute of the declaration sets something else than a table. -/
  | notTable
  | tableNotText
  | unknownKey (key : String)
  | malformed
  deriving DecidableEq, Repr

def Underivable.message : Underivable → String
  | generic => "Entity cannot be derived for generic structs"
  | unnamedFields => "Entity can only be derived for structs with named fields"
  | notStruct => "Entity can only be derived for structs"
  | packed => "Entity cannot be derived for #[repr(packed)] structs"
  | notTable => "expected #[orm(table = \"table_name\")]"
  | tableNotText => "table name must be a string literal"
  | unknownKey key => "unknown orm field attribute \x60" ++ key ++ "\x60"
  | malformed => "<syntax>"

/-- What is derived from a declaration. -/
structure Derived where
  name : String
  table : Option String
  fields : List (String × Option String)
  /-- The names of constants, with the fields that they name. -/
  constants : List (String × String)
  deriving DecidableEq, Repr

namespace Declaration

def annotations (attributes : List Attribute) : Except Underivable (List Annotation) :=
  match attributes.mapM Attribute.annotations? with
  | some found => .ok found.flatten
  | none => .error .malformed

/-- The kind of a declaration has to be that of a struct with named fields. -/
def checkKind (d : Declaration) : Except Underivable Unit :=
  match d.kind with
  | .struct => .ok ()
  | .tuple | .unit => .error .unnamedFields
  | .enum | .union => .error .notStruct

def checkLayout : List Annotation → Except Underivable Unit
  | [] => .ok ()
  | ⟨path, given⟩ :: rest =>
    if !path.isJust "repr" then checkLayout rest
    else
      match given with
      | .group inner =>
        match Annotation.paths? inner with
        | some paths => if paths.any (·.isJust "packed") then .error .packed else checkLayout rest
        | none => .error .malformed
      | _ => .error .malformed

/-- The table that a setting names: the word `table`, an equals sign and a text. -/
def tableOf (setting : List Token) : Except Underivable String :=
  match Annotation.ofTokens? setting with
  | some ⟨path, .value value⟩ =>
    if !path.isJust "table" then .error .notTable
    else
      match value with
      | [.text table] => .ok table
      | _ => .error .tableNotText
  | _ => .error .malformed

def table? : List Annotation → Except Underivable (Option String)
  | [] => .ok none
  | ⟨path, given⟩ :: rest =>
    if !path.isJust "orm" then table? rest
    else
      match given with
      | .group setting => some <$> tableOf setting
      | _ => .error .malformed

/-- The segments of a tag that pairs of a key and a text set. The only key is `column`; the number bounds
how many pairs there are. -/
def segments : Nat → List Token → Except Underivable (List String)
  | _, [] => .ok []
  | 0, _ => .error .malformed
  | k + 1, .name key :: .mark '=' _ :: .text value :: rest =>
    if !Keyword.isFree key then .error .malformed
    else if key != "column" then .error (.unknownKey key)
    else
      match rest with
      | [] => .ok [key ++ "=" ++ value]
      | .mark ',' _ :: rest => ((key ++ "=" ++ value) :: ·) <$> segments k rest
      | _ => .error .malformed
  | _, _ => .error .malformed

/-- The tag that an annotation sets, if it sets one: a text as it stands, or pairs. -/
def tagOf (e : Annotation) : Except Underivable (Option String) :=
  if !e.path.isJust "orm" then .ok none
  else
    match e.given with
    | .group [.text tag] => .ok (some tag)
    | .group inner =>
      match segments inner.length inner with
      | .ok [] => .ok none
      | .ok parts => .ok (some (String.intercalate "," parts))
      | .error e => .error e
    | _ => .error .malformed

/-- The tag of a field; the last annotation that sets one counts. -/
def fieldTag : List Annotation → Except Underivable (Option String)
  | [] => .ok none
  | e :: rest =>
    match tagOf e with
    | .error e => .error e
    | .ok tag =>
      match fieldTag rest with
      | .error e => .error e
      | .ok later => .ok (later <|> tag)

def deriveField : String × List Annotation → Except Underivable (String × Option String)
  | (name, annotations) =>
    match fieldTag annotations with
    | .ok tag => .ok (name, tag)
    | .error e => .error e

def constantFor (field : String) : String := "FIELD_" ++ Text.constantName field

/-- What a declaration gives. All of it has to be readable. Then its parameters are checked, its kind, its
layout, its own attribute, and its fields in order. -/
def derive (d : Declaration) : Except Underivable Derived := do
  let own ← annotations d.attributes
  let declared ← d.fields.mapM fun f => (nameOf f.name, ·) <$> annotations f.attributes
  if !d.isWellFormed then throw .malformed
  if d.isGeneric then throw .generic
  checkKind d
  checkLayout own
  let table ← table? own
  let fields ← declared.mapM deriveField
  pure ⟨nameOf d.name, table, fields, fields.map fun (field, _) => (constantFor field, field)⟩

end Declaration

end EntitySql
