import Extension.Clause.Parser
import Extension.Rule.Expression

namespace Extension

open Text

/-! What happens on the way, for whoever wants to follow it.

Most notices are entries of the log, with a severity and the part of the program that they come from.
-/

inductive Severity where
  | debug
  | info
  | error
deriving DecidableEq, Repr

/-- The name of the severity, which is also that of the lowest log level that shows it. -/
def Severity.name : Severity → String
  | .debug => "DEBUG"
  | .info => "INFO"
  | .error => "ERROR"

def Severity.rank : Severity → Nat
  | .debug => 10
  | .info => 20
  | .error => 40

structure LogEntry where
  severity : Severity
  source : String
  text : String
deriving DecidableEq, Repr

def LogEntry.line (entry : LogEntry) : String :=
  s!"{entry.severity.name} {entry.source}: {entry.text}\n"

inductive Notice where
  | pass (number : Nat) (record : Decision.PassRecord)
  | compiled (function : String) (passes atoms : Nat) (clause : String)
  | itemCompiled (expression clause : String)
  | executing (command : String)
  | keySet (key : String) (value : Value)
  | notRegistered (message : String)
  /-- A hand-written clause that this library cannot read, although the host may. -/
  | doubtful (clause : String) (fault : Clause.SyntaxFault)
  | merged (events : Nat) (file : String)
  | graphWritten (file clause : String)
  | failed (message : String)
  | failedWith (details : Entries Value)

namespace Notice

def hexadecimal (n : Nat) : String :=
  "0x" ++ String.ofList (Nat.toDigits 16 n)

def textList (texts : List String) : String :=
  (Value.list (texts.map .text)).quoted

def entry? : Notice → Option LogEntry
  | .pass number record =>
      let result := (Value.bool record.result).quoted
      let discovered := textList (record.discovered.map (·.text))
      some ⟨.debug, "contributions.when",
        s!"Pass {number}: assignment={hexadecimal record.assignment} result={result} discovered={discovered}"⟩
  | .compiled function passes atoms clause =>
      some ⟨.debug, "contributions.when",
        s!"Compiled {function} in {passes} passes ({atoms} atoms): {quoted clause}"⟩
  | .itemCompiled expression clause =>
      some ⟨.debug, "contributions.menu", s!"Compiled {expression} to {quoted clause}"⟩
  | .executing command => some ⟨.debug, "contributions.command", s!"Executing command {command}"⟩
  | .keySet key value =>
      -- the entry is written when it is shown, and left out if its value cannot be
      value.quoted?.map fun shown => ⟨.debug, "contributions.context_key", s!"Context key {key} set to {shown}"⟩
  | .notRegistered message => some ⟨.error, "contributions.registry", message⟩
  | .doubtful _ _ => none
  | .merged events file =>
      some ⟨.info, "contributions.serialization", s!"Merged {events} activation events into {file}"⟩
  | .graphWritten file clause => some ⟨.info, "contributions.cli", s!"Wrote {file} for {quoted clause}"⟩
  | .failed message => some ⟨.error, "contributions.cli", message⟩
  | .failedWith details => some ⟨.error, "contributions.cli", s!"details: {(Value.dict details).quoted}"⟩

def warning? : Notice → Option String
  | .doubtful clause fault =>
      some s!"when-clause {quoted clause} may not be understood by the host: {fault.message}"
  | _ => none

end Notice

namespace Explored

variable {σ : Type}

def passNotices (explored : Explored σ) : List Notice :=
  explored.records.mapIdx fun index record => .pass (index + 1) record

def compileNotices (explored : Explored σ) : List Notice :=
  match explored.outcome with
  | .error _ => explored.passNotices
  | .ok tree =>
      explored.passNotices ++
        [.compiled explored.expression.name explored.expression.passes tree.atoms.length tree.clause]

end Explored

end Extension
