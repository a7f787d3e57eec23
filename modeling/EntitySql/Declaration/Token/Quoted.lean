import EntitySql.Text.Hex

namespace EntitySql

/-- What the inside of quotes is. -/
inductive Quotation where
  | text
  | bytes
  /-- A text that a zero ends, so that it holds none. -/
  | zeroEnded
  deriving DecidableEq, Repr

namespace Quotation

def holds : Quotation → Char → Bool
  | text, _ => true
  | bytes, c => c.toNat < 0x80
  | zeroEnded, c => c.toNat ≠ 0

/-- Whether a number of two hexadecimal digits may stand for a character. -/
def holdsByte : Quotation → Nat → Bool
  | text, n => n < 0x80
  | bytes, _ => true
  | zeroEnded, n => n ≠ 0

/-- Whether a carriage return stands without a line feed behind it. -/
def hasBareReturn : List Char → Bool
  | '\r' :: '\n' :: rest => hasBareReturn rest
  | c :: rest => c = '\r' || hasBareReturn rest
  | [] => false

/-- The characters up to the first occurrence of a text, and those after it. -/
def upTo? (close : List Char) : List Char → Option (List Char × List Char)
  | [] => none
  | c :: rest =>
    if close.isPrefixOf (c :: rest) then some ([], (c :: rest).drop close.length)
    else (upTo? close rest).map fun (inner, after) => (c :: inner, after)

/-- The character of a number of one to six hexadecimal digits, behind which may be strokes. -/
def ofHex? (digits : List Char) : Option Char :=
  let plain := digits.filter (· != '_')
  if plain.isEmpty || 6 < plain.length || digits.head? = some '_' then none
  else
    (plain.mapM Text.hexValue?).bind fun values =>
      let n := values.foldl (fun n d => n * 16 + d) 0
      if n.isValidChar then some (Char.ofNat n) else none

/-- The character that an escape stands for, from behind its backslash, and the characters after it. -/
def escape? (q : Quotation) : List Char → Option (Char × List Char)
  | 'n' :: rest => some ('\n', rest)
  | 'r' :: rest => some ('\r', rest)
  | 't' :: rest => some ('\t', rest)
  | '\\' :: rest => some ('\\', rest)
  | '"' :: rest => some ('"', rest)
  | '\x27' :: rest => some ('\x27', rest)
  | '0' :: rest => if q.holdsByte 0 then some ('\x00', rest) else none
  | 'x' :: high :: low :: rest =>
    match Text.hexValue? high, Text.hexValue? low with
    | some h, some l => if q.holdsByte (h * 16 + l) then some (Char.ofNat (h * 16 + l), rest) else none
    | _, _ => none
  | 'u' :: '\x7b' :: rest =>
    if q = .bytes then none
    else
      (upTo? ['\x7d'] rest).bind fun (digits, after) =>
        (ofHex? digits).bind fun c => if q.holds c then some (c, after) else none
  | _ => none

/-- The characters behind the end of a line and the blanks of the lines that follow, which a backslash before
that end takes with it. -/
def afterMargin? : List Char → Option (List Char)
  | '\r' :: '\n' :: rest => afterMargin? rest
  | c :: rest =>
    if c = '\r' then none
    else if c = '\n' || c = ' ' || c = '\t' then afterMargin? rest
    else some (c :: rest)
  | [] => none

/-- What the inside of plain quotes stands for, and the characters after the closing one; the number bounds
its length. -/
def plainWithin? (q : Quotation) : Nat → List Char → Option (List Char × List Char)
  | 0, _ => none
  | _, [] => none
  | k + 1, c :: rest =>
    let put (c : Char) (rest : List Char) : Option (List Char × List Char) :=
      (plainWithin? q k rest).map fun (inner, after) => (c :: inner, after)
    if c = '"' then some ([], rest)
    else if c = '\\' then
      if rest.head? = some '\n' || rest.head? = some '\r' then (afterMargin? rest).bind (plainWithin? q k)
      else (escape? q rest).bind fun (c, rest) => put c rest
    else if c = '\r' then
      match rest with
      | '\n' :: rest => put '\n' rest
      | _ => none
    else if q.holds c then put c rest
    else none

/-- What the inside of plain quotes stands for, and the characters after the closing one. -/
def plain? (q : Quotation) (cs : List Char) : Option (List Char × List Char) := plainWithin? q cs.length cs

/-- The largest number of `#` before raw quotes. -/
def maxFence : Nat := 255

/-- A text in raw quotes, from the `#` before them on, and the characters after it. -/
def raw? (q : Quotation) (cs : List Char) : Option (List Char × List Char) :=
  let fence := cs.takeWhile (· = '#')
  match cs.dropWhile (· = '#') with
  | '"' :: rest =>
    (upTo? ('"' :: fence) rest).bind fun (inner, after) =>
      if fence.length ≤ maxFence && inner.all q.holds && !hasBareReturn inner then some (inner, after)
      else none
  | _ => none

/-- The characters after a character in apostrophes, the first of which is past. -/
def afterCharacter? (q : Quotation) : List Char → Option (List Char)
  | '\\' :: rest =>
    match escape? q rest with
    | some (_, '\x27' :: after) => some after
    | _ => none
  | c :: '\x27' :: rest => if q.holds c then some rest else none
  | _ => none

end Quotation

end EntitySql
