import EntitySql.Declaration.Keyword
import EntitySql.Declaration.Token.Numeral

namespace EntitySql

inductive Bracket where
  | round | square | curly
  deriving DecidableEq, Repr

namespace Bracket

def ofOpening? : Char → Option Bracket
  | '(' => some round
  | '[' => some square
  | '\x7b' => some curly
  | _ => none

def ofClosing? : Char → Option Bracket
  | ')' => some round
  | ']' => some square
  | '\x7d' => some curly
  | _ => none

end Bracket

inductive Token where
  /-- A name or a keyword, with the mark `r#` if it is written with it. -/
  | name (text : String)
  | label (text : String)
  /-- A text in quotes, as the text that it stands for. -/
  | text (value : String)
  | number (n : Numeral)
  | literal
  /-- A punctuation mark; it is joined if the next character is one too. -/
  | mark (c : Char) (joined : Bool)
  /-- What stands between an opening bracket and the closing one. -/
  | group (b : Bracket) (inner : List Token)
  deriving Repr

namespace Token

mutual

/-- The number of tokens, those inside groups included. -/
def size : Token → Nat
  | .group _ inner => total inner + 1
  | _ => 1

/-- The number of tokens in a row, those inside groups included. -/
def total : List Token → Nat
  | [] => 0
  | t :: rest => size t + total rest

end

/-- The tokens after some punctuation marks that stand without gaps between them. -/
def afterMarks : List Char → List Token → Option (List Token)
  | [], ts => some ts
  | [c], .mark d _ :: rest => if c = d then some rest else none
  | c :: more, .mark d true :: rest => if c = d then afterMarks more rest else none
  | _, _ => none

def after (marks : String) (ts : List Token) : Option (List Token) := afterMarks marks.toList ts

/-- Whether tokens start with a mark written with some characters. -/
def isMark (marks : String) (ts : List Token) : Bool := (after marks ts).isSome

/-- Whether tokens start with a mark, and not with one of some longer ones. -/
def isJust (marks : String) (longer : List String) (ts : List Token) : Bool :=
  isMark marks ts && !longer.any (isMark · ts)

def isWordWith (p : String → Bool) : List Token → Bool
  | .name word :: _ => p word
  | _ => false

def isWord (word : String) : List Token → Bool := isWordWith (· = word)

def isOneOf (words : List String) : List Token → Bool := isWordWith words.contains

def isName : List Token → Bool := isWordWith Keyword.isFree

def isAnyName : List Token → Bool := isWordWith fun _ => true

def isLabel : List Token → Bool
  | .label _ :: _ => true
  | _ => false

def isGroup (b : Bracket) : List Token → Bool
  | .group b' _ :: _ => b = b'
  | _ => false

def isAnyGroup : List Token → Bool
  | .group _ _ :: _ => true
  | _ => false

def isText : List Token → Bool
  | .text _ :: _ => true
  | _ => false

/-- The tokens after a literal at their start. A number may have a minus sign before it. -/
def afterLiteral? : List Token → Option (List Token)
  | .text _ :: rest => some rest
  | .number _ :: rest => some rest
  | .literal :: rest => some rest
  | .name word :: rest => if word = "true" || word = "false" then some rest else none
  | .mark '-' _ :: .number _ :: rest => some rest
  | _ => none

def isLiteral (ts : List Token) : Bool := (afterLiteral? ts).isSome

def isColon : List Token → Bool := isJust ":" ["::"]

def isPoint : List Token → Bool := isJust "." [".."]

def isAlternative : List Token → Bool := isJust "|" ["||", "|="]

/-- Whether tokens start with the mark that calls a macro. -/
def isCall : List Token → Bool := isJust "!" ["!="]

end Token

end EntitySql
