import Extension.Clause.Parser

namespace Extension.Clause

/-! The truth value of an expression.

`Expr.value` follows the shape of the expression.  `evaluate` reaches the same value with a stack of
work and a stack of values, so that its own depth does not grow with the expression.  Both look at every
operand, and so report the first part that cannot be evaluated whatever the truth values are.  What is no
sign counts as one: as a negation before an operand, and as "or" between two.
-/

inductive EvaluationFault where
  | notAnAtom (expr : Expr)
  /-- The operand of a test has an integer with more digits than are written. -/
  | tooManyDigits
  /-- The name of a key cannot be looked up in a table. -/
  | unhashable (name : Value)
  | unsupported (value : Value)
  | noValue

/-- Why an expression has no text to be looked up by. -/
def Expr.misfit (expr : Expr) : EvaluationFault :=
  if expr.isAtom then .tooManyDigits else .notAnAtom expr

inductive ErrorKind where
  | type
  | value
  | recursion
  | index
deriving DecidableEq, Repr

/-- What an evaluation that fails comes out with. -/
structure EvaluationError where
  kind : ErrorKind
  text : String
deriving DecidableEq, Repr

/-- The error that a fault comes out as.  What is said of an expression that is no test shows all of it, and when
that cannot be written, another error takes its place.  `fits` tells for which expressions there is room on the
stack, since each part is written inside the one around it. -/
def EvaluationFault.error (fits : Expr → Bool) : EvaluationFault → EvaluationError
  | .notAnAtom expr =>
      if fits expr then
        match expr.display? with
        | some shown => ⟨.type, s!"Not an atom: {shown}"⟩
        | none => ⟨.value, Number.unwrittenText⟩
      else ⟨.recursion, "maximum recursion depth exceeded"⟩
  | .tooManyDigits => ⟨.value, Number.unwrittenText⟩
  | .unhashable name => ⟨.type, s!"unhashable type: '{name.typeName}'"⟩
  | .unsupported value => ⟨.type, s!"Unsupported Expression type: {value.typeText}"⟩
  | .noValue => ⟨.index, "pop from empty list"⟩

/-- Does an expression go no deeper than the stack of a program that has just been started? -/
def Expr.fitsStack (expr : Expr) : Bool :=
  expr.depth ≤ 328

/-- The truth values of the tests, by their texts. -/
abbrev Truth := String → Bool

/-- The truth values of keys by names that are no texts, unless they cannot be looked up. -/
abbrev OtherTruth := Value → Option Bool

/-- No table has such a name. -/
def OtherTruth.inTable : OtherTruth := fun name =>
  if name.isHashable then some false else none

/-- Where the values of tests are looked up: in a table, which may lack some of them, or by a function. -/
inductive TruthTable where
  | entries (held : Entries Value)
  | answers (answer : Value → Value)

namespace TruthTable

/-- A test that a table lacks is false. -/
def truth : TruthTable → Truth
  | .entries held, text => ((held.lookup text).map Value.truthy).getD false
  | .answers answer, text => (answer (.text text)).truthy

def otherTruth : TruthTable → OtherTruth
  | .entries _ => .inTable
  | .answers answer => fun name => some (answer name).truthy

end TruthTable

def Connective.apply : Connective → Bool → Bool → Bool
  | .both, left, right => left && right
  | .either, left, right => left || right

def Expr.value (truth : Truth) (other : OtherTruth := .inTable) : Expr → Except EvaluationFault Bool
  | .literal value => .ok value.truthy
  | .key name => .ok (truth name)
  | .misnamed name =>
      match other name with
      | some value => .ok value
      | none => .error (.unhashable name)
  | .negation operand =>
      match operand.value truth other with
      | .error fault => .error fault
      | .ok value => .ok (!value)
  | .comparison how left right =>
      match (Expr.comparison how left right).atomText? with
      | some text => .ok (truth text)
      | none => .error (Expr.comparison how left right).misfit
  | .connective how left right =>
      match left.value truth other with
      | .error fault => .error fault
      | .ok first =>
          match right.value truth other with
          | .error fault => .error fault
          | .ok second => .ok (how.apply first second)
  | .misnegated _ operand =>
      match operand.value truth other with
      | .error fault => .error fault
      | .ok value => .ok (!value)
  | .misjoined _ left right =>
      match left.value truth other with
      | .error fault => .error fault
      | .ok first =>
          match right.value truth other with
          | .error fault => .error fault
          | .ok second => .ok (first || second)
  | .foreign value => .error (.unsupported value)

inductive Task where
  | visit (expr : Expr)
  | negate
  | join (how : Connective)

def Expr.work : Expr → Nat
  | .negation operand | .misnegated _ operand => operand.work + 2
  | .connective _ left right | .misjoined _ left right => left.work + right.work + 2
  | _ => 1

def Task.work : Task → Nat
  | .visit expr => expr.work
  | .negate | .join _ => 1

def totalWork : List Task → Nat
  | [] => 0
  | task :: rest => task.work + totalWork rest

def runTasks (truth : Truth) (other : OtherTruth) : List Task → List Bool → Except EvaluationFault (List Bool)
  | [], values => .ok values
  | .visit (.literal value) :: rest, values => runTasks truth other rest (value.truthy :: values)
  | .visit (.key name) :: rest, values => runTasks truth other rest (truth name :: values)
  | .visit (.misnamed name) :: rest, values =>
      match other name with
      | some value => runTasks truth other rest (value :: values)
      | none => .error (.unhashable name)
  | .visit (.negation operand) :: rest, values => runTasks truth other (.visit operand :: .negate :: rest) values
  | .visit (.comparison how left right) :: rest, values =>
      match (Expr.comparison how left right).atomText? with
      | some text => runTasks truth other rest (truth text :: values)
      | none => .error (Expr.comparison how left right).misfit
  | .visit (.connective how left right) :: rest, values =>
      runTasks truth other (.visit left :: .visit right :: .join how :: rest) values
  | .visit (.misnegated _ operand) :: rest, values => runTasks truth other (.visit operand :: .negate :: rest) values
  | .visit (.misjoined _ left right) :: rest, values =>
      runTasks truth other (.visit left :: .visit right :: .join .either :: rest) values
  | .visit (.foreign value) :: _, _ => .error (.unsupported value)
  | .negate :: rest, value :: values => runTasks truth other rest ((!value) :: values)
  | .join how :: rest, right :: left :: values => runTasks truth other rest (how.apply left right :: values)
  | .negate :: _, [] | .join _ :: _, [] | .join _ :: _, [_] => .error .noValue
termination_by tasks => totalWork tasks
decreasing_by all_goals simp only [totalWork, Task.work, Expr.work]; omega

/-- Evaluates an expression; `truth` is asked for every test. -/
def evaluate (expr : Expr) (truth : Truth) (other : OtherTruth := .inTable) : Except EvaluationFault Bool :=
  match runTasks truth other [.visit expr] [] with
  | .error fault => .error fault
  | .ok [] => .error .noValue
  | .ok (value :: _) => .ok value

/-- Why a clause has no value. -/
inductive ClauseFault where
  | unread (error : SyntaxError)
  | unvalued (fault : EvaluationFault)

/-- Reads and evaluates a clause in one step. -/
def evaluateClause (clause : String) (table : TruthTable) : Except ClauseFault Bool :=
  match parse clause with
  | .error error => .error (.unread error)
  | .ok expr => (evaluate expr table.truth table.otherTruth).mapError .unvalued

end Extension.Clause
