import EntitySql.Text.Blank

namespace EntitySql.Text

def isLower (c : Char) : Bool := 'a' ≤ c && c ≤ 'z'

def isUpper (c : Char) : Bool := 'A' ≤ c && c ≤ 'Z'

def isDigit (c : Char) : Bool := '0' ≤ c && c ≤ '9'

def isAlphanumeric (c : Char) : Bool := isLower c || isUpper c || isDigit c

/-- The lower-case form of an ASCII capital; other characters are kept. -/
def lower (c : Char) : Char := if isUpper c then Char.ofNat (c.toNat + 32) else c

namespace SnakeCase

/-- Every run of characters other than ASCII letters and digits becomes one `_`. The flag says that
the run has begun. -/
def unifySeparators (inRun : Bool) : List Char → List Char
  | [] => []
  | c :: rest =>
    if isAlphanumeric c then c :: unifySeparators false rest
    else if inRun then unifySeparators true rest
    else '_' :: unifySeparators true rest

/-- A `_` goes between a character and a capitalised word that follows it. Matches do not overlap:
the flag says that the lower-case tail of a word is being passed over. -/
def setOffWords (inWord : Bool) : List Char → List Char
  | [] => []
  | c :: rest =>
    if inWord && isLower c then c :: setOffWords true rest
    else match rest with
      | u :: l :: more =>
        if isUpper u && isLower l then c :: '_' :: u :: l :: setOffWords true more
        else c :: setOffWords false (u :: l :: more)
      | few => c :: few

def setOffCapitals : List Char → List Char
  | c :: u :: rest =>
    if (isLower c || isDigit c) && isUpper u then c :: '_' :: u :: setOffCapitals rest
    else c :: setOffCapitals (u :: rest)
  | few => few

/-- Every run of `_` becomes one. The flag says that the run has begun. -/
def collapse (inRun : Bool) : List Char → List Char
  | [] => []
  | c :: rest =>
    if c = '_' then if inRun then collapse true rest else '_' :: collapse true rest
    else c :: collapse false rest

end SnakeCase

open SnakeCase in
/-- The snake-case spelling of an identifier. Acronyms stay together (`DriverCardID` is `driver_card_id`)
and digits stay with the word before them. -/
def snakeCase (name : List Char) : List Char :=
  (trim (· == '_')
    (collapse false (setOffCapitals (setOffWords false (unifySeparators false name))))).map lower

def snakeCaseName (name : String) : String := String.ofList (snakeCase name.toList)

end EntitySql.Text
