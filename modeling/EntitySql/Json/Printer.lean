import EntitySql.Json.Basic
import EntitySql.Text.Quoted

namespace EntitySql.Json

def wholeText (n : Int) : List Char :=
  if n < 0 then '-' :: Shortest.decimalDigits n.natAbs else Shortest.decimalDigits n.natAbs

def exponentText (n : Int) : List Char :=
  if n < 0 then 'e' :: '-' :: Shortest.decimalDigits n.natAbs
  else 'e' :: '+' :: Shortest.decimalDigits n.natAbs

/-- The text of a positive decimal. It is positional when the point falls no more than sixteen places
after the first digit and no more than four zeros before it, else it has an exponent. -/
def decimalText (d : Shortest.Decimal) : List Char :=
  let digits := Shortest.decimalDigits d.digits
  let point := digits.length + d.exponent
  if 0 ≤ d.exponent && point ≤ 16 then digits ++ List.replicate d.exponent.toNat '0' ++ ['.', '0']
  else if 0 < point && point ≤ 16 then
    digits.take point.toNat ++ '.' :: digits.drop point.toNat
  else if -5 < point && point ≤ 0 then '0' :: '.' :: (List.replicate (-point).toNat '0' ++ digits)
  else match digits with
    | [] => []
    | [first] => first :: exponentText (point - 1)
    | first :: rest => first :: '.' :: rest ++ exponentText (point - 1)

def realText (x : Double) : List Char :=
  let body := match x.datum with
    | .finite _ m k => if m = 0 then ['0', '.', '0'] else decimalText (Shortest.ofDatum m k)
    | _ => "null".toList
  if x.negative then '-' :: body else body

def escapeChar (c : Char) : List Char :=
  if c = '"' then ['\\', '"']
  else if c = '\\' then ['\\', '\\']
  else if c = '\n' then ['\\', 'n']
  else if c = '\r' then ['\\', 'r']
  else if c = '\t' then ['\\', 't']
  else if c.toNat = 0x08 then ['\\', 'b']
  else if c.toNat = 0x0C then ['\\', 'f']
  else if c.toNat < 0x20 then
    ['\\', 'u', '0', '0', Text.hexDigit (c.toNat / 16), Text.hexDigit (c.toNat % 16)]
  else [c]

def stringText (s : String) : List Char :=
  '"' :: s.toList.flatMap escapeChar ++ ['"']

mutual

def text : Json → List Char
  | null => "null".toList
  | bool true => "true".toList
  | bool false => "false".toList
  | number (.whole n) => wholeText n
  | number (.real x) => realText x
  | string s => stringText s
  | array items => '[' :: itemsText items ++ [']']
  | object members => '\x7b' :: membersText members ++ ['\x7d']

def itemsText : List Json → List Char
  | [] => []
  | [item] => text item
  | item :: next :: rest => text item ++ ',' :: itemsText (next :: rest)

def membersText : List (String × Json) → List Char
  | [] => []
  | [(name, value)] => stringText name ++ ':' :: text value
  | (name, value) :: next :: rest => stringText name ++ ':' :: text value ++ ',' :: membersText (next :: rest)

end

def render (j : Json) : String := String.ofList j.text

end EntitySql.Json
