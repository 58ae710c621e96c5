import Extension.Settings
import Extension.Value.Text

namespace Extension.Decision

open Text

/-! Why running a rule fails. -/

inductive RaisedKind where
  | value
  | runtime
  | key
  | type
  | importing
  | attribute
deriving DecidableEq, Repr

structure Raised where
  kind : RaisedKind
  text : String
deriving DecidableEq, Repr

/-- The text of a raised error; a missing key is quoted. -/
def Raised.message (raised : Raised) : String :=
  match raised.kind with
  | .key => quoted raised.text
  | _ => raised.text

inductive Fault where
  /-- A key that is empty, or a context key made from something that is no text. -/
  | emptyKey (key : Value)
  | keyNotText (key : Value)
  | emptyOperand (key : String)
  /-- A test on an accessor whose pass has ended. -/
  | passOver (atom : String)
  | alreadyCompiling (function : String)
  | notCallable (type : String)
  | tooDeep (atom : String) (depth : Nat) (capacity : Int)
  /-- A test at a position where an earlier pass returned. -/
  | readAfterResult (atom : String) (result : Bool) (depth : Nat)
  /-- A test at a position where an earlier pass made another one. -/
  | readOther (atom expected : String) (depth : Int)
  /-- A return at a position where an earlier pass made a test. -/
  | returnedEarly (atom : String) (depth : Int)
  /-- A return at a position where an earlier pass returned something else. -/
  | returnedOther (result existing : Bool) (atom : String) (depth : Int)
  | settings (fault : SettingsFault)
  | raised (raised : Raised)

namespace Fault

/-- An integer with more digits than are written. -/
def tooManyDigits : Fault :=
  .raised ⟨.value, Number.unwrittenText⟩

/-- A fault whose details show a value; it does not come about if the value cannot be written. -/
def unlessUnwritten (value : Value) (fault : Fault) : Fault :=
  if value.isWritten then fault else tooManyDigits

def boolName (b : Bool) : String :=
  if b then "True" else "False"

def nonDeterministic (what : String) : String :=
  "When expression is non-deterministic: " ++ what

def message : Fault → String
  | .emptyKey _ => "Context keys must be non-empty strings"
  | .keyNotText key => s!"Can only use context key strings, got {key.typeName}"
  | .emptyOperand key => s!"Cannot compare {quoted key} against an empty value"
  | .passOver _ => "Context tests may only be used inside the when() function that received them"
  | .alreadyCompiling _ => "compile() is already running for this when() expression"
  | .notCallable type => s!"when() needs a callable, got {type}"
  | .tooDeep atom depth capacity =>
      s!"When expressions may read at most {capacity} predicates along one path, {quoted atom} would be number {depth}"
  | .readAfterResult atom result _ =>
      nonDeterministic s!"{quoted atom} was read at a position where a previous run returned {boolName result}"
  | .readOther atom expected _ =>
      nonDeterministic s!"read {quoted atom} where a previous run read {quoted expected}"
  | .returnedEarly atom _ =>
      nonDeterministic s!"returned where a previous run went on to read {quoted atom}"
  | .returnedOther result existing _ _ =>
      nonDeterministic s!"returned {boolName result} where a previous run returned {boolName existing}"
  | .settings fault => fault.message
  | .raised cause => cause.message

def details : Fault → List (String × Value)
  | .emptyKey key => [("key", .text key.quoted)]
  | .keyNotText key => [("key", .text key.quoted)]
  | .emptyOperand key => [("key", .text key)]
  | .passOver atom => [("atom", .text atom)]
  | .alreadyCompiling function => [("function", .text function)]
  | .tooDeep atom depth capacity => [("atom", .text atom), ("depth", .int depth), ("max_atoms", .int capacity)]
  | .readAfterResult atom _ depth => [("atom", .text atom), ("depth", .int depth)]
  | .readOther atom expected depth =>
      [("atom", .text atom), ("expected", .text expected), ("depth", .int depth)]
  | .returnedEarly atom depth => [("atom", .text atom), ("depth", .int depth)]
  | .returnedOther _ _ atom depth => [("atom", .text atom), ("depth", .int depth)]
  | .notCallable _ | .settings _ | .raised _ => []

end Fault

end Extension.Decision
