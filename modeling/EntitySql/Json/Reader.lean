import EntitySql.Json.Basic
import EntitySql.Text.Hex

namespace EntitySql.Json

def isBlank (c : Char) : Bool := c = ' ' || c = '\n' || c = '\t' || c = '\r'

def skipBlank (cs : List Char) : List Char := cs.dropWhile isBlank

def digitValue? (c : Char) : Option Nat :=
  if '0' ≤ c && c ≤ '9' then some (c.toNat - 48) else none

def hex4? (a b c d : Char) : Option Nat := do
  return ((← Text.hexValue? a) * 16 + (← Text.hexValue? b)) * 256 + (← Text.hexValue? c) * 16 + (← Text.hexValue? d)

def shortEscape? (c : Char) : Option Char :=
  if c = '"' then some '"'
  else if c = '\\' then some '\\'
  else if c = '/' then some '/'
  else if c = 'b' then some (Char.ofNat 0x08)
  else if c = 'f' then some (Char.ofNat 0x0C)
  else if c = 'n' then some '\n'
  else if c = 'r' then some '\r'
  else if c = 't' then some '\t'
  else none

/-- The rest of a string after its opening quote, and what follows the closing one. -/
def readString : List Char → Option (List Char × List Char)
  | [] => none
  | '"' :: rest => some ([], rest)
  | '\\' :: 'u' :: a :: b :: c :: d :: rest =>
    match hex4? a b c d with
    | none => none
    | some n =>
      if 0xDC00 ≤ n && n ≤ 0xDFFF then none
      else if 0xD800 ≤ n && n ≤ 0xDBFF then
        match rest with
        | '\\' :: 'u' :: a :: b :: c :: d :: rest =>
          match hex4? a b c d with
          | none => none
          | some low =>
            if 0xDC00 ≤ low && low ≤ 0xDFFF then
              (readString rest).map fun (s, after) =>
                (Char.ofNat (0x10000 + (n - 0xD800) * 0x400 + (low - 0xDC00)) :: s, after)
            else none
        | _ => none
      else (readString rest).map fun (s, after) => (Char.ofNat n :: s, after)
  | '\\' :: c :: rest =>
    match shortEscape? c with
    | none => none
    | some c => (readString rest).map fun (s, after) => (c :: s, after)
  | c :: rest =>
    if c.toNat < 0x20 || c = '\\' then none
    else (readString rest).map fun (s, after) => (c :: s, after)

def readDigits : List Char → List Nat × List Char
  | [] => ([], [])
  | c :: rest =>
    match digitValue? c with
    | none => ([], c :: rest)
    | some d => let (ds, after) := readDigits rest; (d :: ds, after)

/-- A significand takes up digits as long as it fits in 64 bits; the digits that are left. -/
def absorb (significand : Nat) : List Nat → Nat × List Nat
  | [] => (significand, [])
  | d :: rest =>
    if significand * 10 + d < Nat.pow 2 64 then absorb (significand * 10 + d) rest
    else (significand, d :: rest)

/-- A number by its parts. -/
structure Literal where
  negative : Bool
  whole : List Nat
  fraction : Option (List Nat)
  /-- The sign (`true` for minus) and digits of the exponent, if there is one. -/
  exponent : Option (Bool × List Nat)

def readLiteral (negative : Bool) (cs : List Char) : Option (Literal × List Char) := do
  let (whole, cs) := readDigits cs
  if whole.isEmpty || (whole.head? = some 0 && whole.length ≠ 1) then none
  let (fraction, cs) ← match cs with
    | '.' :: rest =>
      let (ds, after) := readDigits rest
      if ds.isEmpty then none else some (some ds, after)
    | _ => some (none, cs)
  let exponentFrom (minus : Bool) (rest : List Char) : Option (Option (Bool × List Nat) × List Char) :=
    let (ds, after) := readDigits rest
    if ds.isEmpty then none else some (some (minus, ds), after)
  let (exponent, cs) ← match cs with
    | e :: rest =>
      if e = 'e' || e = 'E' then
        match rest with
        | '+' :: rest => exponentFrom false rest
        | '-' :: rest => exponentFrom true rest
        | rest => exponentFrom false rest
      else some (none, cs)
    | [] => some (none, cs)
  return (⟨negative, whole, fraction, exponent⟩, cs)

def powerOfTen (e : Nat) : Double := .ofInt (Nat.pow 10 e)

/-- A double times a power of ten of any sign, rounding at each step of at most 308 places. None if
it is too large. -/
def scale (x : Double) (e : Int) : Nat → Option Double
  | 0 => some .zero
  | fuel + 1 =>
    if e.natAbs ≤ 308 then
      if 0 ≤ e then
        let y := x.scaleUp (powerOfTen e.natAbs)
        if y = .ofNat Binary.double.infinity then none else some y
      else some (x.scaleDown (powerOfTen e.natAbs))
    else if x = .zero then some x
    else if 0 ≤ e then none
    else scale (x.scaleDown (powerOfTen 308)) (e + 308) fuel

def digitsValue (ds : List Nat) : Nat := ds.foldl (fun n d => n * 10 + d) 0

/-- The real number of a literal, sign apart. -/
def Literal.magnitude (l : Literal) : Option Double :=
  let (significand, dropped) := absorb 0 l.whole
  let (significand, taken) := match l.fraction with
    | none => (significand, 0)
    | some ds => let (s, left) := absorb significand ds; (s, ds.length - left.length)
  let start : Int := dropped.length - taken
  match l.exponent with
  | none => scale (.ofInt significand) start 4
  | some (minus, ds) =>
    let e := digitsValue ds
    if Nat.pow 2 31 ≤ e then if significand ≠ 0 && !minus then none else some .zero
    else scale (.ofInt significand) (if minus then start - e else start + e) 4

def Literal.number? (l : Literal) : Option JsonNumber :=
  let n := digitsValue l.whole
  if l.fraction.isNone && l.exponent.isNone && n < Nat.pow 2 64 then
    if !l.negative then some (.whole n)
    else if 0 < n && n ≤ Nat.pow 2 63 then some (.whole (-n))
    else some (.real (Double.ofInt n).neg)
  else l.magnitude.map fun x => .real (if l.negative then x.neg else x)

def readNumber (cs : List Char) : Option (Json × List Char) := do
  let (l, rest) ← match cs with
    | '-' :: cs => readLiteral true cs
    | cs => readLiteral false cs
  let n ← l.number?
  return (.number n, rest)

mutual

/-- A document at the start of a text, and what follows it. `levels` more levels may open. -/
def readValue (levels : Nat) (cs : List Char) : Nat → Option (Json × List Char)
  | 0 => none
  | fuel + 1 =>
    match skipBlank cs with
    | 'n' :: 'u' :: 'l' :: 'l' :: rest => some (.null, rest)
    | 't' :: 'r' :: 'u' :: 'e' :: rest => some (.bool true, rest)
    | 'f' :: 'a' :: 'l' :: 's' :: 'e' :: rest => some (.bool false, rest)
    | '"' :: rest => (readString rest).map fun (s, after) => (.string (String.ofList s), after)
    | '[' :: rest =>
      if levels = 0 then none
      else match skipBlank rest with
        | ']' :: after => some (.array [], after)
        | rest => (readItems (levels - 1) rest fuel).map fun (items, after) => (.array items, after)
    | '\x7b' :: rest =>
      if levels = 0 then none
      else match skipBlank rest with
        | '\x7d' :: after => some (.object [], after)
        | rest =>
          (readMembers (levels - 1) [] rest fuel).map fun (members, after) => (.object members, after)
    | rest => readNumber rest

def readItems (levels : Nat) (cs : List Char) : Nat → Option (List Json × List Char)
  | 0 => none
  | fuel + 1 =>
    match readValue levels cs fuel with
    | none => none
    | some (item, rest) =>
      match skipBlank rest with
      | ']' :: after => some ([item], after)
      | ',' :: rest => (readItems levels rest fuel).map fun (items, after) => (item :: items, after)
      | _ => none

/-- The members of an object up to its end, added to those before. -/
def readMembers (levels : Nat) (members : List (String × Json)) (cs : List Char) :
    Nat → Option (List (String × Json) × List Char)
  | 0 => none
  | fuel + 1 =>
    match skipBlank cs with
    | '"' :: rest =>
      match readString rest with
      | none => none
      | some (name, rest) =>
        match skipBlank rest with
        | ':' :: rest =>
          match readValue levels rest fuel with
          | none => none
          | some (value, rest) =>
            let members := insertMember (String.ofList name) value members
            match skipBlank rest with
            | '\x7d' :: after => some (members, after)
            | ',' :: rest => readMembers levels members rest fuel
            | _ => none
        | _ => none
    | _ => none

end

/-- The document that a text holds, with blanks around it and nothing else. -/
def parse? (s : String) : Option Json :=
  let cs := s.toList
  match readValue 127 cs (2 * cs.length + 2) with
  | some (j, rest) => if (skipBlank rest).isEmpty then some j else none
  | none => none

end EntitySql.Json
