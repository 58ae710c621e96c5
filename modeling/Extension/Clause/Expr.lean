import Extension.Value.Text

namespace Extension.Clause

/-! When-clauses as expressions.

A clause joins tests of context keys by "and", "or" and "not".  A test is a bare key, or a key compared
with the operand after it.  Nothing here forces the two sides of a comparison to be a key and a literal, a
key to have a text for its name, nor what stands before or between operands to be a sign: `isAtom` says which
expressions are tests, and `atomText?` is their text, if they have one that can be written.
-/

inductive Comparison where
  | equals
  | «matches»
deriving DecidableEq, Repr

inductive Connective where
  | both
  | either
deriving DecidableEq, Repr

inductive Expr where
  | literal (value : Value)
  | key (name : String)
  | negation (operand : Expr)
  | comparison (how : Comparison) (left right : Expr)
  | connective (how : Connective) (left right : Expr)
  /-- A key that has something else than a text for its name. -/
  | misnamed (name : Value)
  /-- An operand behind something that is not the sign of a negation. -/
  | misnegated (sign : Value) (operand : Expr)
  /-- Two operands with something between them that is no sign at all. -/
  | misjoined (sign : Value) (left right : Expr)
  /-- Anything else that was put where an expression belongs. -/
  | foreign (value : Value)

instance : Inhabited Expr := ⟨.literal .null⟩

def Comparison.sign : Comparison → String
  | .equals => "=="
  | .matches => "~="

def Connective.sign : Connective → String
  | .both => "&&"
  | .either => "||"

namespace Expr

/-- Is the expression a test: a key, or a key compared with a literal? -/
def isAtom : Expr → Bool
  | .key _ | .misnamed _ | .comparison _ (.key _) (.literal _) | .comparison _ (.misnamed _) (.literal _) => true
  | _ => false

/-- The text under which a test is looked up: the key, or the key, the sign and the operand. -/
def atomText? : Expr → Option String
  | .key name => some name
  | .comparison how (.key name) (.literal value) => value.display?.map fun operand => s!"{name} {how.sign} {operand}"
  | .comparison how (.misnamed name) (.literal value) => do
      return s!"{← name.display?} {how.sign} {← value.display?}"
  | _ => none

/-- The expression with all its parts named, as messages show it. -/
def display : Expr → String
  | .literal value => s!"Literal(value={value.quoted})"
  | .key name => s!"ContextKeyReference(name={Text.quoted name})"
  | .misnamed name => s!"ContextKeyReference(name={name.quoted})"
  | .negation operand => s!"UnaryExpression(operator=<UnaryOperator.NOT: '!'>, operand={operand.display})"
  | .comparison how left right =>
      let name := match how with
        | .equals => "EQUALS"
        | .matches => "MATCHES"
      binary s!"<BinaryOperator.{name}: '{how.sign}'>" left.display right.display
  | .connective how left right =>
      let name := match how with
        | .both => "AND"
        | .either => "OR"
      binary s!"<BinaryOperator.{name}: '{how.sign}'>" left.display right.display
  | .misnegated sign operand => s!"UnaryExpression(operator={sign.quoted}, operand={operand.display})"
  | .misjoined sign left right => binary sign.quoted left.display right.display
  | .foreign value => value.quoted
where
  binary (operator left right : String) : String :=
    s!"BinaryExpression(operator={operator}, left={left}, right={right})"

/-- Can all values in the expression be written? -/
def isWritten : Expr → Bool
  | .literal value | .misnamed value | .foreign value => value.isWritten
  | .key _ => true
  | .negation operand => operand.isWritten
  | .comparison _ left right | .connective _ left right => left.isWritten && right.isWritten
  | .misnegated sign operand => sign.isWritten && operand.isWritten
  | .misjoined sign left right => sign.isWritten && left.isWritten && right.isWritten

def display? (expr : Expr) : Option String :=
  if expr.isWritten then some expr.display else none

/-- How many expressions stand inside one another at most. -/
def depth : Expr → Nat
  | .literal _ | .key _ | .misnamed _ | .foreign _ => 1
  | .negation operand | .misnegated _ operand => operand.depth + 1
  | .comparison _ left right | .connective _ left right | .misjoined _ left right =>
      max left.depth right.depth + 1

end Expr

end Extension.Clause
