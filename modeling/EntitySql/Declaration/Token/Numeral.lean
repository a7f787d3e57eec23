import EntitySql.Text.Hex
import EntitySql.Text.NameCharacter
import EntitySql.Text.Split

namespace EntitySql

inductive Numeral where
  | whole (value : Nat) (suffix : String)
  /-- A number with a point or an exponent, as it is written. -/
  | real (text : String)
  deriving DecidableEq, Repr

namespace Numeral

/-- A name at the start of a text, and the characters after it. -/
def name? : List Char → Option (List Char × List Char)
  | [] => none
  | c :: rest =>
    if Text.isNameStart c then some (c :: rest.takeWhile Text.isNamePart, rest.dropWhile Text.isNamePart)
    else none

/-- The name that may stand behind a number or a text, and the characters after it. -/
def suffix (cs : List Char) : List Char × List Char := (name? cs).getD ([], cs)

/-- The name behind a number. Nothing else that belongs to names may follow its digits. -/
def suffix? (cs : List Char) : Option (List Char × List Char) :=
  match name? cs with
  | some found => some found
  | none => if cs.head?.any Text.isNamePart then none else some ([], cs)

def isDigitOrStroke (c : Char) : Bool := c.isDigit || c = '_'

def digits (cs : List Char) : List Char × List Char :=
  (cs.takeWhile isDigitOrStroke, cs.dropWhile isDigitOrStroke)

def someDigits? (cs : List Char) : Option (List Char × List Char) :=
  let (found, rest) := digits cs
  if found.any Char.isDigit then some (found, rest) else none

def exponent? (cs : List Char) : Option (List Char × List Char) :=
  let strokes := cs.takeWhile (· = '_')
  match cs.dropWhile (· = '_') with
  | sign :: rest =>
    if sign = '+' || sign = '-' then
      (someDigits? rest).map fun (found, after) => (strokes ++ sign :: found, after)
    else someDigits? cs
  | [] => none

def lettered? : List Char → Option (List Char × List Char)
  | c :: rest =>
    if c = 'e' || c = 'E' then (exponent? rest).map fun (found, after) => (c :: found, after) else none
  | [] => none

/-- The digits of a real number, and the characters after them. Behind its point neither another point nor
a name may stand; an exponent that is not complete belongs to the name after the number. -/
def realDigits? (cs : List Char) : Option (List Char × List Char) :=
  let (found, rest) := digits cs
  match rest with
  | '.' :: behind =>
    if behind.head?.any fun c => c = '.' || Text.isNameStart c then none
    else
      let (fraction, rest) := digits behind
      match lettered? rest with
      | some (power, after) => some (found ++ '.' :: fraction ++ power, after)
      | none => some (found ++ '.' :: fraction, rest)
  | _ => (lettered? rest).map fun (power, after) => (found ++ power, after)

/-- A real number at the start of a text, and the characters after it. -/
def real? (cs : List Char) : Option (Numeral × List Char) := do
  let (found, rest) ← realDigits? cs
  let (name, after) ← suffix? rest
  some (.real (String.ofList (found ++ name)), after)

/-- The base that a number is written in, and its digits. -/
def base : List Char → Nat × List Char
  | '0' :: 'x' :: rest => (16, rest)
  | '0' :: 'o' :: rest => (8, rest)
  | '0' :: 'b' :: rest => (2, rest)
  | cs => (10, cs)

/-- Whether a character may stand among the digits in a base. -/
def isDigitIn (base : Nat) (c : Char) : Bool :=
  isDigitOrStroke c || (base = 16 && (Text.hexValue? c).isSome)

/-- The value of digits in a base, if each of them is below the base and there is one. -/
def valueIn? (base : Nat) (cs : List Char) : Option Nat :=
  match (cs.filter (· != '_')).mapM Text.hexValue? with
  | some (d :: rest) =>
    if (d :: rest).all (· < base) then some ((d :: rest).foldl (fun n d => n * base + d) 0) else none
  | _ => none

/-- A whole number at the start of a text, and the characters after it. -/
def whole? (cs : List Char) : Option (Numeral × List Char) := do
  let (base, rest) := base cs
  let value ← valueIn? base (rest.takeWhile (isDigitIn base))
  let (name, after) ← suffix? (rest.dropWhile (isDigitIn base))
  some (.whole value (String.ofList name), after)

/-- A number at the start of a text, and the characters after it. -/
def read? : List Char → Option (Numeral × List Char)
  | [] => none
  | c :: rest => if c.isDigit then real? (c :: rest) <|> whole? (c :: rest) else none

/-- The last place that a member without a name may have. -/
def lastPlace : Nat := 4294967295

/-- Whether a number may stand for a member by its place. -/
def isPlace : Numeral → Bool
  | whole value suffix => suffix = "" && value ≤ lastPlace
  | real _ => false

/-- Whether characters are a number that may stand for a member by its place. -/
def arePlace (cs : List Char) : Bool :=
  match read? cs with
  | some (n, []) => n.isPlace
  | _ => false

/-- A real number may be two places with the point between them, or one with a point behind it: whether it
can be read so, and then whether a point is behind. -/
def places? (text : String) : Option Bool :=
  match (Text.split '.' text.toList).reverse with
  | [] :: before => if before.all arePlace then some true else none
  | parts => if parts.all arePlace then some false else none

end Numeral

end EntitySql
