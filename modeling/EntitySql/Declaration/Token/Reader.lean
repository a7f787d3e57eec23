import EntitySql.Declaration.Token.Basic
import EntitySql.Declaration.Token.Quoted
import EntitySql.Text.Blank

namespace EntitySql.Token

/-- Blanks, and the marks that set the direction of a line. -/
def isGap (c : Char) : Bool := Text.isBlank c || c.toNat = 0x200E || c.toNat = 0x200F

def isPunctuation (c : Char) : Bool := "~!@#$%^&*-=+|;:,<.>/?\x27".toList.contains c

/-- What a comment stands for, if it is one that documents. -/
inductive Comment where
  | plain
  /-- A comment that documents what follows, or what it stands in. -/
  | documenting (inside : Bool) (body : List Char)
  deriving DecidableEq, Repr

namespace Comment

/-- The inside of a comment in stars, and the characters after it. Such comments may be nested; the number
counts those that are open inside. -/
def starred? : Nat → List Char → Option (List Char × List Char)
  | 0, '*' :: '/' :: rest => some ([], rest)
  | depth + 1, '*' :: '/' :: rest =>
    (starred? depth rest).map fun (inner, after) => ('*' :: '/' :: inner, after)
  | depth, '/' :: '*' :: rest =>
    (starred? (depth + 1) rest).map fun (inner, after) => ('/' :: '*' :: inner, after)
  | depth, c :: rest => (starred? depth rest).map fun (inner, after) => (c :: inner, after)
  | _, [] => none

/-- The comment with the given inside. It documents if the inside starts with one sign of its kind that is not
doubled, or with an exclamation mark. -/
def ofInside (sign : Char) : List Char → Comment
  | [] => plain
  | c :: rest =>
    if c = '!' then documenting true rest
    else if c = sign && rest.head? != some sign && !(sign = '*' && rest.isEmpty) then documenting false rest
    else plain

def startsIn : List Char → Bool
  | '/' :: '/' :: _ => true
  | '/' :: '*' :: _ => true
  | _ => false

/-- The rest of a line, without the carriage return before its end, and the characters from its end on. -/
def line (cs : List Char) : List Char × List Char :=
  let found := cs.takeWhile (· != '\n')
  let after := cs.dropWhile (· != '\n')
  (if found.getLast? = some '\r' && !after.isEmpty then found.dropLast else found, after)

/-- The comment at the start of a text, and the characters after it. -/
def read? : List Char → Option (Comment × List Char)
  | '/' :: '/' :: rest => some (ofInside '/' (line rest).1, (line rest).2)
  | '/' :: '*' :: rest => (starred? 0 rest).map fun (inner, after) => (ofInside '*' inner, after)
  | _ => none

def tokens? : Comment → Option (List Token)
  | plain => some []
  | documenting inside body =>
    if Quotation.hasBareReturn body then none
    else
      some (.mark '#' false :: (if inside then [.mark '!' false] else []) ++
        [.group .square [.name "doc", .mark '=' false, .text (String.ofList body)]])

end Comment

def anyLiteral (after : List Char) : Token × List Char := (.literal, (Numeral.suffix after).2)

def textLiteral : List Char × List Char → Token × List Char
  | (inner, after) => (.text (String.ofList inner), (Numeral.suffix after).2)

/-- A literal at the start of a text, and the characters after it. -/
def literal? : List Char → Option (Token × List Char)
  | '"' :: rest => (Quotation.text.plain? rest).map textLiteral
  | 'r' :: rest => (Quotation.text.raw? rest).map textLiteral
  | 'b' :: '"' :: rest => (Quotation.bytes.plain? rest).map (anyLiteral ·.2)
  | 'b' :: 'r' :: rest => (Quotation.bytes.raw? rest).map (anyLiteral ·.2)
  | 'c' :: '"' :: rest => (Quotation.zeroEnded.plain? rest).map (anyLiteral ·.2)
  | 'c' :: 'r' :: rest => (Quotation.zeroEnded.raw? rest).map (anyLiteral ·.2)
  | 'b' :: '\x27' :: rest => (Quotation.bytes.afterCharacter? rest).map anyLiteral
  | '\x27' :: rest => (Quotation.text.afterCharacter? rest).map anyLiteral
  | cs => (Numeral.read? cs).map fun (n, after) => (.number n, after)

/-- Whether a text starts like a literal that is not closed. -/
def startsLiteral (cs : List Char) : Bool :=
  ["r\"", "r#\"", "r##", "b\"", "b\x27", "br\"", "br#", "c\"", "cr\"", "cr#"].any fun start =>
    start.toList.isPrefixOf cs

/-- A name with the mark `r#`, or without, and the characters after it. -/
def anyName? : List Char → Option (String × List Char)
  | 'r' :: '#' :: rest =>
    (Numeral.name? rest).bind fun (word, after) =>
      let word := String.ofList word
      if Keyword.neverNames.contains word then none else some ("r#" ++ word, after)
  | cs => (Numeral.name? cs).map fun (word, after) => (String.ofList word, after)

/-- A name after an apostrophe, from behind it. Neither another apostrophe nor, without the mark `r#`, a `#` may
follow. Where the name starts a literal, that literal is the token and the apostrophe one before it. -/
def label? (cs : List Char) : Option (Token × List Char) :=
  (anyName? cs).bind fun (word, after) =>
    if after.head? = some '\x27' || (after.head? = some '#' && !"r#".toList.isPrefixOf cs) then none
    else if (literal? cs).isSome then some (.mark '\x27' true, cs)
    else if startsLiteral cs then none
    else some (.label word, after)

/-- A label or a mark at the start of a text, and the characters after it. -/
def mark? : List Char → Option (Token × List Char)
  | '\x27' :: rest => label? rest
  | c :: rest =>
    if isPunctuation c && !Comment.startsIn (c :: rest) then
      some (.mark c (rest.head?.any isPunctuation && !Comment.startsIn rest), rest)
    else none
  | [] => none

/-- A name at the start of a text, and the characters after it. -/
def name? (cs : List Char) : Option (Token × List Char) :=
  if startsLiteral cs then none else (anyName? cs).map fun (word, after) => (.name word, after)

/-- The tokens of a text, given those before it, reversed, and for each bracket that is open around it, the last
opened first, the tokens before that, reversed; the number bounds the length of the text. -/
def readWithin? : Nat → List (Bracket × List Token) → List Token → List Char → Option (List Token)
  | _, outer, before, [] => if outer.isEmpty then some before.reverse else none
  | 0, _, _, _ => none
  | k + 1, outer, before, c :: rest =>
    if isGap c then readWithin? k outer before rest
    else match Comment.read? (c :: rest) with
    | some (comment, after) =>
      comment.tokens?.bind fun tokens => readWithin? k outer (tokens.reverse ++ before) after
    | none =>
      match Bracket.ofOpening? c, Bracket.ofClosing? c, outer with
      | some b, _, _ => readWithin? k ((b, before) :: outer) [] rest
      | none, some b, (b', outside) :: outer =>
        if b = b' then readWithin? k outer (.group b before.reverse :: outside) rest else none
      | none, some _, [] => none
      | none, none, _ =>
        (literal? (c :: rest) <|> mark? (c :: rest) <|> name? (c :: rest)).bind fun (token, after) =>
          readWithin? k outer (token :: before) after

def ofText? (text : String) : Option (List Token) := readWithin? text.length [] [] text.toList

end EntitySql.Token
