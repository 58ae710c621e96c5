import Extension.Clause.Lexeme
import Extension.Clause.Grammar

namespace Extension.Clause

open Text

/-! Reading a when-clause.

The clause is cut into lexemes, each operand is read by itself, and the operands are joined from the
left, "and" before "or".
-/

inductive SyntaxFault where
  | emptyOperand
  | missingValue (how : Comparison) (operand : List Char)
  | unrecognized (operand : List Char)
  | unexpectedEnd
  | missingOperand (before : Connective)
  | unexpectedRest (rest : List Lexeme)
deriving DecidableEq, Repr

structure SyntaxError where
  fault : SyntaxFault
  clause : String
deriving DecidableEq, Repr

def Lexeme.text : Lexeme → String
  | .operand text => String.ofList text
  | .joint how => how.sign

def SyntaxFault.message : SyntaxFault → String
  | .emptyOperand => "Empty operand"
  | .missingValue how operand =>
      s!"Missing operand after {quoted how.sign} in {quoted (String.ofList operand)}"
  | .unrecognized operand => s!"Unrecognized operand: {quoted (String.ofList operand)}"
  | .unexpectedEnd => "Unexpected end of clause"
  | .missingOperand before => s!"Missing operand before {quoted before.sign}"
  | .unexpectedRest rest =>
      "Unexpected tokens after parsing: " ++ (Value.list (rest.map fun lexeme => .text lexeme.text)).quoted

/-- Takes the leading negation signs off an operand, each with the blanks after it, and counts them. -/
def negations : List Char → Nat × List Char
  | [] => (0, [])
  | c :: rest =>
      if c = '!' then
        let (count, text) := negations rest
        (count + 1, text)
      else if isBlank c then negations rest
      else (0, c :: rest)

def splitSign? : List Char → Option (Comparison × List Char)
  | '=' :: '=' :: rest => some (.equals, rest)
  | '~' :: '=' :: rest => some (.matches, rest)
  | _ => none

def splitComparison? (text : List Char) : Option (List Char × Comparison × List Char) :=
  let (key, rest) := text.span isKeyChar
  if key = [] then none
  else (splitSign? (stripLeft rest)).map fun (how, value) => (key, how, value)

/-- Reads an operand that carries no negation sign. -/
def parseAtom (text : List Char) : Except SyntaxFault Expr :=
  if text = [] then .error .emptyOperand
  else if text = "true".toList then .ok (.literal (.bool true))
  else if text = "false".toList then .ok (.literal (.bool false))
  else
    match splitComparison? text with
    | some (key, how, value) =>
        let value := strip value
        if value = [] then .error (.missingValue how text)
        else .ok (.comparison how (.key (String.ofList key)) (.literal (.text (String.ofList value))))
    | none => if text.all isKeyChar then .ok (.key (String.ofList text)) else .error (.unrecognized text)

def negate : Nat → Expr → Expr
  | 0, expr => expr
  | count + 1, expr => .negation (negate count expr)

def parseOperand (text : List Char) : Except SyntaxFault Expr :=
  let (count, atom) := negations text
  (parseAtom atom).map (negate count)

/-- The disjunction read so far, if any, with one more conjunction. -/
def orElse : Option Expr → Expr → Expr
  | none, expr => expr
  | some left, right => .connective .either left right

/-- Joins the operands that follow: `done` is the disjunction of the finished conjunctions and `current`
the conjunction being read. -/
def parseRest (done : Option Expr) (current : Expr) : List Lexeme → Except SyntaxFault Expr
  | [] => .ok (orElse done current)
  | .joint how :: .operand text :: rest =>
      match parseOperand text with
      | .error fault => .error fault
      | .ok next =>
          match how with
          | .both => parseRest done (.connective .both current next) rest
          | .either => parseRest (some (orElse done current)) next rest
  | [.joint _] => .error .unexpectedEnd
  | .joint _ :: .joint how :: _ => .error (.missingOperand how)
  | .operand text :: rest => .error (.unexpectedRest (.operand text :: rest))

def parseLexemes : List Lexeme → Except SyntaxFault Expr
  | [] => .error .unexpectedEnd
  | .joint how :: _ => .error (.missingOperand how)
  | .operand text :: rest =>
      match parseOperand text with
      | .error fault => .error fault
      | .ok first => parseRest none first rest

/-- Reads a clause.  A blank clause is the one that is never true. -/
def parse (clause : String) : Except SyntaxError Expr :=
  let text := clause.toList
  if strip text = [] then .ok (.literal (.bool false))
  else (parseLexemes (lexemes text)).mapError (⟨·, clause⟩)

end Extension.Clause
