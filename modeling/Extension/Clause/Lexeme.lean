import Extension.Clause.Expr
import Extension.Text.Blank

namespace Extension.Clause

open Text

/-! A clause cut at its connectives.

The cuts are the leftmost occurrences of the two signs that do not overlap.  What stands between them
are the operands, without the blanks at their ends.
-/

inductive Lexeme where
  | operand (text : List Char)
  | joint (how : Connective)
deriving DecidableEq, Repr

/-- The text before the first sign, and each sign with the text that follows it. -/
def pieces : List Char → List Char × List (Connective × List Char)
  | '&' :: '&' :: rest =>
      let (first, more) := pieces rest
      ([], (.both, first) :: more)
  | '|' :: '|' :: rest =>
      let (first, more) := pieces rest
      ([], (.either, first) :: more)
  | c :: rest =>
      let (first, more) := pieces rest
      (c :: first, more)
  | [] => ([], [])

def lexemes (text : List Char) : List Lexeme :=
  let (first, more) := pieces text
  .operand (strip first) :: more.flatMap fun (how, piece) => [.joint how, .operand (strip piece)]

end Extension.Clause
