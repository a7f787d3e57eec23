import EntitySql.Text.Alphanumeric

namespace EntitySql.Text

namespace ConstantName

/-- The case of the last cased letter of the word so far. -/
inductive Mode where
  | none
  | lower
  | upper
  deriving DecidableEq, Repr

/-- The mode after one more character; characters without case leave it. -/
def Mode.after (mode : Mode) (c : Char) : Mode :=
  if isLowercase c then .lower else if isUppercase c then .upper else mode

/-- The words of a run of letters and digits, given the word so far, reversed, and its mode. -/
def wordsOf (word : List Char) (mode : Mode) : List Char → List (List Char)
  | [] => []
  | [c] => [(c :: word).reverse]
  | c :: next :: rest =>
    if mode.after c = .lower && isUppercase next then
      (c :: word).reverse :: wordsOf [] .none (next :: rest)
    else if mode = .upper && isUppercase c && isLowercase next then
      word.reverse :: wordsOf [c] .none (next :: rest)
    else wordsOf (c :: word) (mode.after c) (next :: rest)

/-- The runs of letters and digits of a text, given the run so far, reversed. -/
def runs (run : List Char) : List Char → List (List Char)
  | [] => [run.reverse]
  | c :: rest => if isLetterOrDigit c then runs (c :: run) rest else run.reverse :: runs [] rest

def words (name : List Char) : List (List Char) :=
  (runs [] name).flatMap (wordsOf [] .none)

end ConstantName

def constantName (name : String) : String :=
  String.intercalate "_"
    ((ConstantName.words name.toList).map fun word => String.ofList (word.flatMap capitals))

end EntitySql.Text
