import EntitySql.Model.Metadata
import EntitySql.Text.Split
import EntitySql.Value.FieldType

namespace EntitySql

/-- A part of a statement, before the dialect spells it. -/
inductive Piece where
  | text (s : String)
  | name (s : String)
  | bound (v : Value)
  /-- A fragment as the caller wrote it, with the arguments of its own placeholders. -/
  | raw (sql : String) (args : List Value)
  deriving DecidableEq, Repr

/-- SQL text with its arguments. -/
structure Statement where
  sql : String
  args : List Value
  deriving DecidableEq, Repr

def Piece.args : Piece → List Value
  | text _ | name _ => []
  | bound v => [v]
  | raw _ args => args

/-- How a dialect spells names and placeholders. -/
structure Spelling where
  quote : Char
  /-- The placeholder of the argument with a given number, counted from one. -/
  placeholder : Nat → String

namespace Spelling

def segment (s : Spelling) (cs : List Char) : List Char := s.quote :: cs ++ [s.quote]

def name (s : Spelling) (name : String) : String :=
  String.ofList (Text.join ['.'] ((Text.split '.' name.toList).map s.segment))

def text (s : Spelling) (bound : Nat) : List Piece → String
  | [] => ""
  | .text t :: rest => t ++ s.text bound rest
  | .name n :: rest => s.name n ++ s.text bound rest
  | .bound _ :: rest => s.placeholder (bound + 1) ++ s.text (bound + 1) rest
  | .raw sql args :: rest => sql ++ s.text (bound + args.length) rest

end Spelling

def argsOf (pieces : List Piece) : List Value := pieces.flatMap Piece.args

def Spelling.statement (s : Spelling) (pieces : List Piece) : Statement :=
  ⟨s.text 0 pieces ++ ";", argsOf pieces⟩

theorem argsOf_append (xs ys : List Piece) : argsOf (xs ++ ys) = argsOf xs ++ argsOf ys := by
  simp [argsOf]

theorem Spelling.text_append (s : Spelling) (bound : Nat) (xs ys : List Piece) :
    s.text bound (xs ++ ys) = s.text bound xs ++ s.text (bound + (argsOf xs).length) ys := by
  induction xs generalizing bound with
  | nil => simp [text, argsOf]
  | cons p rest ih =>
    cases p <;>
      simp [text, ih, argsOf, Piece.args, String.append_assoc, Nat.add_assoc, Nat.add_comm 1]

end EntitySql
