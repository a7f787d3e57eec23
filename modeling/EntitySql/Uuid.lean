import EntitySql.Text.Hex

namespace EntitySql

structure Uuid where
  bits : BitVec 128
  deriving DecidableEq, Repr

namespace Uuid

def nil : Uuid := ⟨0⟩

instance : Inhabited Uuid := ⟨nil⟩

/-- The value of hexadecimal digits after those that make up `value`. -/
def hexValue? (value : Nat) : List Char → Option Nat
  | [] => some value
  | c :: rest =>
    match Text.hexValue? c with
    | some d => hexValue? (value * 16 + d) rest
    | none => none

def ofDigits? (cs : List Char) : Option Uuid :=
  if cs.length = 32 then (hexValue? 0 cs).map fun n => ⟨BitVec.ofNat 128 n⟩ else none

/-- Groups of eight, four, four, four and twelve digits with hyphens between them. -/
def ofGroups? (cs : List Char) : Option Uuid :=
  if cs.length = 36 && [8, 13, 18, 23].all (fun i => cs[i]? = some '-') then
    ofDigits? (cs.take 8 ++ (cs.drop 9).take 4 ++ (cs.drop 14).take 4 ++ (cs.drop 19).take 4 ++ cs.drop 24)
  else none

/-- What stands before the groups of a URN, in any case. -/
def isScheme (cs : List Char) : Bool := cs.map Char.toLower = "urn:uuid:".toList

def parse? (s : String) : Option Uuid :=
  match s.toList with
  | '\x7b' :: rest => if rest.getLast? = some '\x7d' then ofGroups? rest.dropLast else none
  | cs =>
    if isScheme (cs.take 9) then ofGroups? (cs.drop 9)
    else if cs.length = 32 then ofDigits? cs
    else ofGroups? cs

def digits (u : Uuid) : List Char :=
  (List.range 32).map fun i => Text.hexDigit (u.bits.toNat / Nat.pow 16 (31 - i) % 16)

def render (u : Uuid) : String :=
  let d := u.digits
  String.ofList (d.take 8 ++ '-' :: (d.drop 8).take 4 ++ '-' :: (d.drop 12).take 4 ++
    '-' :: (d.drop 16).take 4 ++ '-' :: d.drop 20)

/-- The sixteen bytes, the first digits first. -/
def bytes (u : Uuid) : List UInt8 :=
  (List.range 16).map fun i => (u.bits.toNat / Nat.pow 256 (15 - i) % 256).toUInt8

def ofBytes? (bs : List UInt8) : Option Uuid :=
  if bs.length = 16 then some ⟨BitVec.ofNat 128 (bs.foldl (fun n b => n * 256 + b.toNat) 0)⟩ else none

end Uuid

end EntitySql
