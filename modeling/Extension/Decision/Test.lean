import Extension.Decision.Fault

namespace Extension.Decision

/-! The tests that a rule can make on a context key. -/

structure Test where
  text : String
  key : String
deriving DecidableEq, Repr, Inhabited

/-- What an operand is matched against: the source of a regular expression, or any value. -/
inductive Pattern where
  | source (text : String)
  | plain (value : Value)

/-- The pattern as a clause spells it, without delimiters. -/
def Pattern.operand : Pattern → String
  | .source text => text
  | .plain value => value.display

def Pattern.isWritten : Pattern → Bool
  | .source _ => true
  | .plain value => value.isWritten

def Pattern.operand? : Pattern → Option String
  | .source text => some text
  | .plain value => value.display?

theorem Pattern.operand?_eq (pattern : Pattern) :
    pattern.operand? = if pattern.isWritten then some pattern.operand else none := by
  cases pattern with
  | source text => rfl
  | plain value => exact value.display?_eq

inductive Probe where
  | truthy
  | equals (value : Value)
  | «matches» (pattern : Pattern)

/-- The name of the key that a value stands for.  The empty key is refused, since its test would be
written as an unconditional clause. -/
def keyName (key : Value) : Except Fault String :=
  match key with
  | .contextKey name => .ok name
  | .text "" => .error (.emptyKey key)
  | .text name => .ok name
  | _ => .error (.unlessUnwritten key (.keyNotText key))

def makeContextKey (name : Value) : Except Fault Value :=
  match name with
  | .text "" => .error (.emptyKey name)
  | .text name => .ok (.contextKey name)
  | _ => .error (.unlessUnwritten name (.emptyKey name))

namespace Test

/-- A comparison.  The empty operand is refused, since the clause could not be read back. -/
def comparison (key sign operand : String) : Except Fault Test :=
  if operand = "" then .error (.emptyOperand key) else .ok { text := s!"{key} {sign} {operand}", key }

def ofProbe (key : String) : Probe → Except Fault Test
  | .truthy => .ok { text := key, key }
  | .equals value =>
      match value.operand? with
      | some operand => comparison key "==" operand
      | none => .error .tooManyDigits
  | .matches pattern =>
      match pattern.operand? with
      | some operand => comparison key "~=" operand
      | none => .error .tooManyDigits

end Test

end Extension.Decision
