import Extension.Clause.Expr
import Extension.Text.Blank

namespace Extension.Clause

open Text

/-! Which texts the clause language can write.

Nothing is quoted in a clause, so a key holds no blank and none of the characters that signs are made
of, and an operand neither starts nor ends with a blank and holds neither connective.
-/

def isKeyChar (c : Char) : Bool :=
  !isBlank c && c != '=' && c != '~' && c != '!' && c != '&' && c != '|'

def IsKey (text : List Char) : Prop :=
  text ≠ [] ∧ ∀ c ∈ text, isKeyChar c = true

/-- The words that stand for truth values when they stand alone. -/
def IsReserved (text : List Char) : Prop :=
  text = "true".toList ∨ text = "false".toList

def Holds (signs text : List Char) : Prop :=
  ∃ before after, text = before ++ signs ++ after

/-- An operand that can be written as it is. -/
def IsOperand (text : List Char) : Prop :=
  text ≠ [] ∧ Trimmed text ∧ ¬ Holds ['&', '&'] text ∧ ¬ Holds ['|', '|'] text

instance (text : List Char) : Decidable (IsKey text) :=
  decidable_of_iff (text.isEmpty = false ∧ text.all isKeyChar = true) (by simp [IsKey])

instance (signs text : List Char) : Decidable (Holds signs text) :=
  @decidable_of_iff _ (signs <:+: text) (by simp [Holds, List.IsInfix, eq_comm])
    (List.instDecidableIsInfixOfDecidableEq signs text)

instance (text : List Char) : Decidable (Trimmed text) :=
  decidable_of_iff (text.head?.all (!isBlank ·) = true ∧ text.getLast?.all (!isBlank ·) = true)
    (by simp [Trimmed, Option.all_eq_true])

instance (text : List Char) : Decidable (IsOperand text) :=
  decidable_of_iff (text.isEmpty = false ∧ Trimmed text ∧ ¬ Holds ['&', '&'] text ∧ ¬ Holds ['|', '|'] text)
    (by simp [IsOperand])

/-- A test that reads back as it was written: a key that is no reserved word, or a key compared with an
operand. -/
inductive IsTest : List Char → Prop
  | key {text : List Char} (key : IsKey text) (free : ¬ IsReserved text) : IsTest text
  | comparison {name operand : List Char} (how : Comparison) (key : IsKey name) (kept : IsOperand operand) :
      IsTest (name ++ ' ' :: how.sign.toList ++ ' ' :: operand)

end Extension.Clause
