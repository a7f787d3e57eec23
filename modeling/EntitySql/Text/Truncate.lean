import EntitySql.Text.Utf8

namespace EntitySql.Text

open Utf8

/-- Whether an offset into the bytes of a text splits no character: the byte there continues none, or the
text starts or ends there. -/
def isBoundary (bytes : List UInt8) (offset : Nat) : Bool :=
  offset = 0 || match bytes[offset]? with
    | some b => !isTail b
    | none => offset = bytes.length

def boundaryFrom (bytes : List UInt8) : Nat → Nat
  | 0 => 0
  | offset + 1 => if isBoundary bytes (offset + 1) then offset + 1 else boundaryFrom bytes offset

/-- The part of a text in front of an offset into its bytes. At an offset that is no boundary there is none,
and a run that asks for it breaks off. -/
def before? (s : String) (offset : Nat) : Option String :=
  if isBoundary (ofString s) offset then (toString? ((ofString s).take offset)).toOption else none

/-- The text itself within a limit in bytes, else what is in front of the last boundary within the limit,
and `...`. -/
def truncate? (limit : Option Nat) (s : String) : Option String :=
  match limit with
  | none => some s
  | some limit =>
    if limit < (ofString s).length then
      (before? s (boundaryFrom (ofString s) limit)).map (· ++ "...")
    else some s

end EntitySql.Text
