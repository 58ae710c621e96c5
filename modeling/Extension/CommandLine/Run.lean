import Extension.CommandLine.Arguments
import Extension.CommandLine.Target
import Extension.Decision.Dot

namespace Extension.CommandLine

open Decision Registry

/-! Running the commands.

A run works on the files of a folder, prints lines and gives notices of what happens.  The log level decides
which of the notices are shown.
-/

structure Console where
  files : Files
  output : String := ""
  notices : List Notice := []

abbrev Activity (α : Type) := ExceptT Problem (StateM Console) α

namespace Activity

def write (text : String) : Activity Unit :=
  modify fun console => { console with output := console.output ++ text }

def print (line : String) : Activity Unit :=
  write (line ++ "\n")

def note (notices : List Notice) : Activity Unit :=
  modify fun console => { console with notices := console.notices ++ notices }

def failIn {α ε : Type} (cause : ε → Problem) : Except ε α → Activity α
  | .ok value => pure value
  | .error reason => throw (cause reason)

end Activity

open Activity

def build (environment : Environment) (steps : List Step) : Activity Draft := do
  let (ended, draft) := Draft.runAll { environment } steps
  note draft.registry.notices
  failIn .failure ended
  return draft

/-- Explores an expression, and gives it back with the calls that its function has had. -/
def exploreWith (environment : Environment) (expression : Expression Script)
    (notices : Explored Script → List Notice) : Activity (Expression Script × Tree) := do
  let explored := expression.explore Script.move environment
  note (notices explored)
  let tree ← failIn (fun fault => .failure (.fault fault)) explored.outcome
  return (explored.expression, tree)

def assertRegistered (draft : Draft) : Activity Unit := do
  let (ended, after) := draft.registry.assertRegistered
  note (after.notices.drop draft.registry.notices.length)
  failIn .failure ended

def assemble (draft : Draft) : Activity Json :=
  failIn (fun fault => .failure (.codec fault)) draft.registry.document.toJson

/-- Calls a thing with nothing, and gives the contributions that come of it. -/
def call (environment : Environment) (target : String) (called : Called) : Activity Draft := do
  match called with
  | .blank => return { environment }
  | .other => pure ()
  | .explore expression => let _ ← exploreWith environment expression Explored.passNotices
  | .compile expression => let _ ← exploreWith environment expression Explored.compileNotices
  | .assemble draft => let _ ← assemble draft
  | .assertRegistered draft => assertRegistered draft
  | .fails problem => throw problem
  throw (.notContributions target)

def loadContributions (environment : Environment) (modules : Modules) (target : String) : Activity Draft := do
  match ← failIn id (findTarget modules target) with
  | .contributions draft => return draft
  | .builder steps => build environment steps
  | .function _ => throw .misapplied
  | .callable held => call environment target held.called
  | .kind name => call environment target (Members.making name).called
  | _ => throw (.notContributions target)

def mergeInto (path : String) (package : Manifest.Package Document) : Activity Unit := do
  let fragment ← failIn (fun fault => .failure (.codec fault)) package.toJson
  let console ← get
  let name ← failIn .path (Folder.locate console.files path)
  let (updated, files) := (Manifest.update name fragment).run console.files
  set { console with files }
  let (_, events) ← failIn .update updated
  note [.merged events (Folder.normalPath path)]
  print ("Updated " ++ path)

def runManifest (environment : Environment) (modules : Modules) (target : String) (format : Format)
    (merge : Option String) : Activity Unit := do
  let draft ← loadContributions environment modules target
  let package := draft.registry.document
  let refuse := fun fault => Problem.failure (.codec fault)
  match merge, format with
  | some path, _ => mergeInto path package
  | none, .yaml => write (← failIn refuse package.toYamlText)
  | none, .json => print (← failIn refuse (package.toJsonText (.indented 2)))

/-- The expression of a callable whose answer is always the same. -/
def constantExpression (settings : Settings) (callable : Callable) : Activity (Expression Script) := do
  let holds ← failIn id callable.tested
  return { name := callable.name, start := fun _ => .finish (.bool holds), settings := some settings }

def loadExpression (settings : Settings) (modules : Modules) (target : String) : Activity (Expression Script) := do
  match ← failIn id (findTarget modules target) with
  | .expression expression => return expression
  | .function expression => return { expression with settings := some settings }
  | .builder _ => throw .misapplied
  | .callable held => constantExpression settings held
  | .kind name => constantExpression settings (Members.making name)
  | other => throw (.failure (.fault (.notCallable other.typeName)))

def printReport (environment : Environment) (expression : Expression Script) (tree : Tree) : Activity Unit := do
  let settings ← failIn (fun fault => .failure (.fault fault)) (expression.currentSettings environment)
  match tree.report? settings.maxAtoms expression.passes with
  | none => throw .tooManyTests
  | some report =>
      print report.clause
      print (s!"passes: {report.passes}  atoms: {report.atomCount}  " ++
        s!"depth: {report.maxDepth}/{report.maxAtoms}  clauses: {report.clauseCount}")
      for warning in report.warnings do
        print ("warning: " ++ warning)

def writeDiagram (path : String) (tree : Tree) : Activity Unit := do
  let console ← get
  let name ← failIn .path (Folder.locateForWriting console.files path)
  set { console with files := console.files.put name (tree.dot .detailed) }
  note [.graphWritten path tree.clause]

/-- Compiles an expression.  The diagram is drawn from an exploration of its own. -/
def runCompile (environment : Environment) (settings : Settings) (modules : Modules) (target : String)
    (report : Bool) (dot : Option String) : Activity Unit := do
  let expression ← loadExpression settings modules target
  let expression ←
    if report then do
      let (expression, tree) ← exploreWith environment expression Explored.passNotices
      printReport environment expression tree
      pure expression
    else do
      let (expression, tree) ← exploreWith environment expression Explored.compileNotices
      print tree.clause
      pure expression
  match dot with
  | none => return
  | some path =>
      let (_, tree) ← exploreWith environment expression Explored.passNotices
      writeDiagram path tree

def runRequest (environment : Environment) (settings : Settings) (modules : Modules) : Request → Activity Unit
  | .manifest target format merge => runManifest environment modules target format merge
  | .compile target report dot => runCompile environment settings modules target report dot

inductive Ending where
  | stopped (stop : Stop)
  | exit (code : Nat)
  /-- A problem that the command line does not report itself. -/
  | passedOn (problem : Problem)

structure Outcome where
  ending : Ending
  output : String
  log : String
  files : Files

/-- The log: the entries of the notices whose severity has at least a rank. -/
def logText (rank : Nat) (notices : List Notice) : String :=
  String.join ((notices.filterMap Notice.entry?).filterMap fun entry =>
    if rank ≤ entry.severity.rank then some entry.line else none)

def conclude (rank : Nat) (result : Except Problem Unit) (console : Console) : Outcome :=
  let finish := fun (ending : Ending) (notices : List Notice) =>
    ({ ending, output := console.output, log := logText rank (console.notices ++ notices)
       files := console.files } : Outcome)
  match result with
  | .ok () => finish (.exit 0) []
  | .error problem =>
      match problem.standing.exitCode? with
      | some code => finish (.exit code) problem.notices
      | none => finish (.passedOn problem) []

/-- The lowest rank that is logged.  The settings have no say in a verbose run. -/
def loggedRank (verbose : Bool) (settings : Settings) : Nat :=
  if verbose then Severity.debug.rank else (levelRank? settings.logLevel).getD 30

def run (environment : Environment) (modules : Modules) (files : Files) (arguments : List String) : Outcome :=
  match Arguments.read arguments with
  | .error stop => { ending := .stopped stop, output := "", log := "", files }
  | .ok { verbose, request } =>
      match Settings.load environment with
      | .error fault => conclude 30 (.error (.failure (.fault (.settings fault)))) { files }
      | .ok settings =>
          let (result, console) := (runRequest environment settings modules request).run.run { files }
          conclude (loggedRank verbose settings) result console

end Extension.CommandLine
