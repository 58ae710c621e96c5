import Extension.Host.Recording
import Extension.Manifest.Text
import Extension.Registry.Menu

namespace Extension.Registry

open Decision Host

/-! Drafts: operations on one registry whose contributions go by name.

A name stands for what was last declared under it.  Values and rules are made when the step that has them is
run, so that what cannot be made fails that step.
-/

inductive ConditionSource where
  /-- A rule with the name of its function. -/
  | rule (name : String) (rule : Rule) (maxAtoms : Option Int)
  | value (value : Given Value)

/-- A menu item whose commands go by name. -/
structure ItemSource where
  command : String
  alt : Option String := none
  condition : Option ConditionSource := none

inductive Step where
  | command (name : String) (descriptor : Manifest.Command String) (activates : Bool)
  | external (name id : String)
  | contextKey (name : String) (key : Given Value)
  | menu (name id : String)
  | add (menu : String) (item : ItemSource)
  | group (menu group : String) (items : List ItemSource)
  | items (menu : String)
  | attach
  | detach
  | register (name : String) (handler : Handler)
  | call (name : String) (arguments : Given (List Value))
  | isRegistered (name : String)
  | assign (name : String) (value : Given Value)
  | read (name : String)
  | assertRegistered
  | toJson
  | toYaml
  | display (name : String)

inductive Answer where
  | done
  | value (value : Value)
  | items (items : List (Manifest.MenuItem String))
  | text (text : String)
  /-- How messages show something, and its quoted form if it is a context key. -/
  | shown (display : String) (quoted : Option String)

/-- A registry whose contributions go by name, in an environment. -/
structure Draft where
  environment : Environment
  registry : Registry Handler Recording := { hostState := {} }
  names : Entries Reference := []

/-- The settings of a rule, which may give the number of tests itself. -/
def ruleSettings (maxAtoms : Option Int) : Except Failure (Option Settings) :=
  match maxAtoms with
  | none => .ok none
  | some maxAtoms => ((Settings.ofMaxAtoms maxAtoms).mapError fun cause => .fault (.settings cause)).map some

def ConditionSource.make : ConditionSource → Except Failure (Option (Condition Script))
  | .rule name condition maxAtoms => do
      let settings ← ruleSettings maxAtoms
      return some (.expression (.ofRule name condition settings))
  | .value given => do
      let value ← given.mapError .fault
      return Condition.ofValue value

namespace Draft

def reference (draft : Draft) (name : String) : Except Failure Reference :=
  match draft.names.lookup name with
  | some reference => .ok reference
  | none => .error (.unknown name)

def makeItem (draft : Draft) (source : ItemSource) : Except Failure (Item Script) := do
  let command ← draft.reference source.command
  let alt ← source.alt.mapM draft.reference
  match source.condition with
  | none => return { command, alt }
  | some condition => return { command, alt, condition := ← condition.make }

abbrev Outcome := Except Failure Answer × Draft

def fail (draft : Draft) (failure : Failure) : Outcome :=
  (.error failure, draft)

/-- The answer to a question that changes nothing. -/
def reply {α : Type} (draft : Draft) (asked : Except Failure α) (answer : α → Answer) : Outcome :=
  (asked.map answer, draft)

def conclude {α : Type} (draft : Draft) (attempt : Attempt Handler Recording α) (answer : α → Answer) :
    Outcome :=
  (attempt.1.map answer, { draft with registry := attempt.2 })

def declare (draft : Draft) (name : String) (declared : Reference × Registry Handler Recording) : Outcome :=
  (.ok .done, { draft with registry := declared.2, names := draft.names.put name declared.1 })

def declareKey (draft : Draft) (name : String) (key : Given Value) : Outcome :=
  match key with
  | .error fault => draft.fail (.fault fault)
  | .ok key =>
      match draft.registry.addContextKey key with
      | (.error failure, registry) => (.error failure, { draft with registry })
      | (.ok reference, registry) => draft.declare name (reference, registry)

def menuReference (draft : Draft) (name member : String) : Except Failure Reference := do
  let reference ← draft.reference name
  let _ ← draft.registry.menu? reference member
  return reference

def addTo (draft : Draft) (menu : String) (source : ItemSource) : Outcome :=
  let made := do return (← draft.menuReference menu "add", ← draft.makeItem source)
  match made with
  | .error failure => draft.fail failure
  | .ok (reference, item) =>
      draft.conclude (draft.registry.add Script.move draft.environment reference item) fun () => .done

/-- Adds items to a group; all of them are made before the first is added. -/
def groupIn (draft : Draft) (menu group : String) (sources : List ItemSource) : Outcome :=
  let made := do return (← draft.menuReference menu "group", ← sources.mapM draft.makeItem)
  match made with
  | .error failure => draft.fail failure
  | .ok (reference, items) =>
      draft.conclude (draft.registry.addGroup Script.move draft.environment reference group items)
        fun () => .done

/-- Calls a command with arguments that are made first. -/
def callWith (draft : Draft) (name : String) (arguments : Given (List Value)) : Outcome :=
  match draft.reference name, arguments with
  | .error failure, _ => draft.fail failure
  | .ok _, .error fault => draft.fail (.fault fault)
  | .ok reference, .ok arguments => draft.conclude (draft.registry.call reference arguments) .value

def assignTo (draft : Draft) (name : String) (value : Given Value) : Outcome :=
  match draft.reference name, value with
  | .error failure, _ => draft.fail failure
  | .ok _, .error fault => draft.fail (.fault fault)
  | .ok reference, .ok value => draft.conclude (draft.registry.assign reference value) fun () => .done

def registerAs (draft : Draft) (name : String) (handler : Handler) : Outcome :=
  match draft.reference name with
  | .error failure => draft.fail failure
  | .ok reference => draft.conclude (draft.registry.register reference handler) .value

def shown (draft : Draft) (name : String) : Except Failure Answer := do
  let reference ← draft.reference name
  let display ← draft.registry.display reference
  match reference with
  | .contextKey _ => return .shown display (some (Value.contextKey display).quoted)
  | _ => return .shown display none

def manifest (draft : Draft)
    (write : Manifest.Package Document → Except Manifest.CodecFault String) : Except Failure String :=
  (write draft.registry.document).mapError .codec

def run (draft : Draft) : Step → Outcome
  | .command name descriptor activates =>
      draft.declare name (draft.registry.addCommand descriptor activates)
  | .external name id => draft.declare name (.external id, draft.registry)
  | .contextKey name key => draft.declareKey name key
  | .menu name id => draft.declare name (draft.registry.addMenu id)
  | .add menu item => draft.addTo menu item
  | .group menu group items => draft.groupIn menu group items
  | .items menu =>
      draft.reply (do draft.registry.menu? (← draft.reference menu) "items")
        fun (_, menu) => .items menu.items
  | .attach => (.ok .done, { draft with registry := draft.registry.attach recording })
  | .detach => (.ok .done, { draft with registry := draft.registry.detach })
  | .register name handler => draft.registerAs name handler
  | .call name arguments => draft.callWith name arguments
  | .isRegistered name =>
      draft.reply (do draft.registry.isRegistered (← draft.reference name)) fun b => .value (.bool b)
  | .assign name value => draft.assignTo name value
  | .read name => draft.reply (do draft.registry.value (← draft.reference name)) .value
  | .assertRegistered => draft.conclude draft.registry.assertRegistered fun () => .done
  | .toJson => draft.reply (draft.manifest (·.toJsonText .line)) .text
  | .toYaml => draft.reply (draft.manifest (·.toYamlText)) .text
  | .display name => draft.reply (draft.shown name) id

/-- Runs steps up to the first that fails. -/
def runAll (draft : Draft) : List Step → Except Failure Unit × Draft
  | [] => (.ok (), draft)
  | step :: steps =>
      match draft.run step with
      | (.error failure, draft) => (.error failure, draft)
      | (.ok _, draft) => runAll draft steps

end Draft

end Extension.Registry
