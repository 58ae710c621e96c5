import Extension.CommandLine.Problem
import Extension.Registry.Explorer

namespace Extension.CommandLine

open Decision Registry

/-! What a target may name: the things of a module, and what can be reached from them. -/

/-- What a call without arguments does. -/
inductive Called where
  /-- It gives something that declares no contributions. -/
  | other
  /-- It gives contributions with nothing in them. -/
  | blank
  | explore (expression : Expression Script)
  | compile (expression : Expression Script)
  | assemble (draft : Draft)
  | assertRegistered (draft : Draft)
  | fails (problem : Problem)

/-- Something that can be called, by what its calls come to. -/
structure Callable where
  /-- The type of the callable itself. -/
  type : String
  /-- The name by which the log calls it. -/
  name : String
  /-- Called with an accessor: does the answer count as true? -/
  tested : Except Problem Bool
  called : Called

/-- Something that a module has, or a member of such a thing. -/
inductive Thing where
  /-- A rule as a plain function, with the calls that it has had. -/
  | function (expression : Expression Script)
  | expression (expression : Expression Script)
  /-- A function without parameters that declares contributions. -/
  | builder (steps : List Step)
  | contributions (draft : Draft)
  | hostLink (attached : Bool)
  | settings (settings : Settings)
  | value (value : Value)
  | callable (callable : Callable)
  /-- A type of things, which can be called to make one. -/
  | kind (name : String)
  | module (name : String) (members : List (String × Thing))
  /-- Anything else, by its type. -/
  | plain (type : String)

/-- A thing as it is described, before it is made. -/
inductive Definition where
  | function (rule : Rule)
  | expression (rule : Rule) (maxAtoms : Option Int)
  | value (value : Given Value)
  | contributions (steps : List Step)
  | builder (steps : List Step)

def Definition.make (environment : Environment) (name : String) : Definition → Except Failure Thing
  | .function rule => .ok (.function (.ofRule name rule none))
  | .expression rule maxAtoms => do
      let settings ← ruleSettings maxAtoms
      return .expression (.ofRule name rule settings)
  | .value given => (given.mapError .fault).map .value
  | .contributions steps =>
      let (ended, draft) := Draft.runAll { environment } steps
      ended.map fun () => .contributions draft
  | .builder steps => .ok (.builder steps)

namespace Thing

def typeName : Thing → String
  | .function _ | .builder _ => "function"
  | .expression _ => "WhenExpression"
  | .contributions _ => "Contributions"
  | .hostLink _ => "HostApi"
  | .settings _ => "CompilerSettings"
  | .value held => held.typeName
  | .callable held => held.type
  | .kind _ => "type"
  | .module _ _ => "module"
  | .plain type => type

/-- The thing as the message about a missing member names it.  A method leaves the question to its function,
and a lock is named with its module. -/
def holder : Thing → Holder
  | .kind name => .kind name
  | .module name _ => .module name
  | .callable { type := "method", .. } => .thing "function"
  | .plain "lock" => .thing "_thread.lock"
  | thing => .thing thing.typeName

end Thing

end Extension.CommandLine
