import Extension.Folder
import Extension.Manifest.Files
import Extension.Registry.Basic

namespace Extension.CommandLine

open Text Decision

/-! Why a command fails. -/

/-- Something that is asked for a member. -/
inductive Holder where
  | thing (type : String)
  | kind (name : String)
  | module (name : String)
deriving DecidableEq, Repr

def Holder.display : Holder → String
  | .thing type => s!"'{type}' object"
  | .kind name => s!"type object '{name}'"
  | .module name => s!"module '{name}'"

inductive Problem where
  | malformedTarget (target : String)
  | relativeModule
  | unknownModule (name : String)
  /-- The name of a module continues that of one that holds no modules. -/
  | notAPackage (name parent : String)
  | noAttribute (holder : Holder) (member : String)
  | notContributions (target : String)
  | misapplied
  | emptyList
  /-- A negative number is written as bytes, which have no sign. -/
  | negativeBytes
  | failure (failure : Failure)
  | update (fault : Manifest.UpdateFault)
  | path (fault : PathFault)
  /-- The allowed number of tests is beyond every double. -/
  | tooManyTests

inductive Standing where
  /-- It is about the extension's own declarations: the exit code is 1. -/
  | declaration
  /-- It is about what the program was given: the exit code is 2. -/
  | input
  /-- It is passed on to the caller. -/
  | unexpected
deriving DecidableEq, Repr

def Standing.exitCode? : Standing → Option Nat
  | .declaration => some 1
  | .input => some 2
  | .unexpected => none

namespace Problem

def raisedStanding : RaisedKind → Standing
  | .value | .importing | .attribute => .input
  | .runtime | .key | .type => .unexpected

def faultStanding : Fault → Standing
  | .settings _ => .input
  | .raised raised => raisedStanding raised.kind
  | _ => .declaration

def shapeStanding : ShapeFault → Standing
  | .noMember _ _ | .notAPair _ _ | .circular | .tooManyDigits => .input
  | .wrongType | .missingKey _ => .unexpected

def failureStanding : Failure → Standing
  | .notAttached | .unregistered _ => .declaration
  | .fault cause => faultStanding cause
  | .noMember _ _ => .input
  | .codec (.shape cause) => shapeStanding cause
  | .codec (.unsupportedIcon _) | .unknown _ => .unexpected

def updateStanding : Manifest.UpdateFault → Standing
  | .missingFile _ => .unexpected
  | .unreadable _ => .input
  | .shape cause => shapeStanding cause

def standing : Problem → Standing
  | .malformedTarget _ | .unknownModule _ | .notAPackage _ _ | .noAttribute _ _ | .notContributions _ => .input
  | .path .nullCharacter => .input
  | .relativeModule | .misapplied | .emptyList | .negativeBytes | .path _ | .tooManyTests => .unexpected
  | .failure cause => failureStanding cause
  | .update cause => updateStanding cause

def message : Problem → String
  | .malformedTarget target => s!"Target must look like 'module:attribute', got {quoted target}"
  | .relativeModule => "A module must be named in full"
  | .unknownModule name => s!"No module named {quoted name}"
  | .notAPackage name parent => s!"No module named {quoted name}; {quoted parent} is not a package"
  | .noAttribute holder name => s!"{holder.display} has no attribute '{name}'"
  | .notContributions target => s!"{target} is not a Contributions object"
  | .misapplied => "Called with other arguments than it takes"
  | .emptyList => "pop from empty list"
  | .negativeBytes => "can't convert negative int to unsigned"
  | .failure cause => cause.message
  | .update cause => cause.message
  | .path .missing => "No such file or directory"
  | .path .isFolder => "Is a directory"
  | .path .notAFolder => "Not a directory"
  | .path .tooLong => "File name too long"
  | .path .nullCharacter => "embedded null byte"
  | .tooManyTests => "int too large to convert to float"

def details : Problem → Entries Value
  | .failure cause => cause.details
  | _ => []

def notices (problem : Problem) : List Notice :=
  .failed problem.message ::
    match problem.standing, problem.details with
    | .declaration, entry :: more => [.failedWith (entry :: more)]
    | _, _ => []

end Problem

end Extension.CommandLine
