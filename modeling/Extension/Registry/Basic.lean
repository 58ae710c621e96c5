import Extension.Host
import Extension.Manifest.Codec
import Extension.Notice

namespace Extension

open Decision

/-! What an extension declares: commands, menus and context keys, and how they meet the host.

Contributions are declared before there is a host.  Whatever needs the host fails until it is attached.
-/

structure DeclaredCommand where
  descriptor : Manifest.Command String
  /-- Does invoking the command activate the extension? -/
  activates : Bool := true
  isRegistered : Bool := false

/-- A menu with the items that were added through one handle.  Several menus may have the same id. -/
structure Menu where
  id : String
  items : List (Manifest.MenuItem String) := []

/-- A context key, with the value that the host was last given through it. -/
structure ContextKey where
  name : String
  value : Value := .null

/-- What a declaration refers to: something declared, by its place, or a command of another extension. -/
inductive Reference where
  | command (index : Nat)
  | external (id : String)
  | contextKey (index : Nat)
  | menu (index : Nat)
deriving DecidableEq, Repr

def Reference.kind : Reference → String
  | .command _ => "Command"
  | .external _ => "ExternalCommand"
  | .contextKey _ => "ContextKey"
  | .menu _ => "Menu"

inductive Condition (ρ : Type) where
  | clause (text : String)
  | expression (expression : Expression ρ)
  /-- Something that is no condition, by its type. -/
  | unsupported (type : String)

/-- A value as a condition: null is none, and a text is a clause. -/
def Condition.ofValue {ρ : Type} : Value → Option (Condition ρ)
  | .null => none
  | .text written => some (.clause written)
  | other => some (.unsupported other.typeName)

structure Item (ρ : Type) where
  command : Reference
  alt : Option Reference := none
  condition : Option (Condition ρ) := none

inductive Failure where
  | notAttached
  /-- Commands that were declared and never registered, as messages show them. -/
  | unregistered (commands : List String)
  | fault (fault : Fault)
  /-- Something is used in a way that its kind does not allow. -/
  | noMember (kind member : String)
  | codec (fault : Manifest.CodecFault)
  | unknown (name : String)

def unregisteredMessage (commands : List String) : String :=
  "One or more contributions were not registered: " ++ String.intercalate ", " commands

namespace Failure

def message : Failure → String
  | .notAttached => "Cannot use the host API before calling contributions.attach(host)"
  | .unregistered commands => unregisteredMessage commands
  | .fault cause => cause.message
  | .noMember kind member => s!"'{kind}' object has no attribute '{member}'"
  | .codec cause => cause.message
  | .unknown name => Text.quoted name

def details : Failure → Entries Value
  | .unregistered commands => [("missing", .list (commands.map .text))]
  | .fault cause => cause.details
  | .notAttached | .noMember _ _ | .codec _ | .unknown _ => []

end Failure

/-- Everything that an extension declares. -/
structure Registry (η σ : Type) where
  host : Option (Host η σ) := none
  /-- The state of the host, which it keeps while it is detached. -/
  hostState : σ
  commands : List DeclaredCommand := []
  menus : List Menu := []
  contextKeys : List ContextKey := []
  notices : List Notice := []

/-- A registry after an operation, with what the operation came to. -/
abbrev Attempt (η σ α : Type) := Except Failure α × Registry η σ

namespace DeclaredCommand

def display (command : DeclaredCommand) : String :=
  s!"Command({command.descriptor.id})"

def activationEvent (command : DeclaredCommand) : String :=
  "onCommand:" ++ command.descriptor.id

/-- Adds the command to a package, with its activation event. -/
def contribute (package : Manifest.Package String) (command : DeclaredCommand) : Manifest.Package String :=
  let package := package.addCommand command.descriptor
  if command.activates then package.addEvent command.activationEvent else package

end DeclaredCommand

def Menu.contribute (package : Manifest.Package String) (menu : Menu) : Manifest.Package String :=
  package.extendMenu menu.id menu.items

namespace Registry

variable {η σ : Type}

def note (registry : Registry η σ) (notice : Notice) : Registry η σ :=
  { registry with notices := registry.notices ++ [notice] }

def noteAll (registry : Registry η σ) (notices : List Notice) : Registry η σ :=
  { registry with notices := registry.notices ++ notices }

def attach (registry : Registry η σ) (host : Host η σ) : Registry η σ :=
  { registry with host := some host }

def detach (registry : Registry η σ) : Registry η σ :=
  { registry with host := none }

def ask {α : Type} (registry : Registry η σ) (request : Host η σ → σ → Given α × σ) : Attempt η σ α :=
  match registry.host with
  | none => (.error .notAttached, registry)
  | some host =>
      let (result, hostState) := request host registry.hostState
      (result.mapError .fault, { registry with hostState })

def addCommand (registry : Registry η σ) (descriptor : Manifest.Command String) (activates : Bool := true) :
    Reference × Registry η σ :=
  (.command registry.commands.length,
    { registry with commands := registry.commands ++ [{ descriptor, activates }] })

def addMenu (registry : Registry η σ) (id : String) : Reference × Registry η σ :=
  (.menu registry.menus.length, { registry with menus := registry.menus ++ [{ id }] })

/-- Declares a context key, which needs a text that is not empty for its name. -/
def addContextKey (registry : Registry η σ) (name : Value) : Attempt η σ Reference :=
  match makeContextKey name with
  | .ok (.contextKey name) =>
      (.ok (.contextKey registry.contextKeys.length),
        { registry with contextKeys := registry.contextKeys ++ [{ name }] })
  | .ok _ => (.error (.fault (.emptyKey name)), registry)
  | .error fault => (.error (.fault fault), registry)

/-- The declared command that a reference stands for; `member` says what is wanted of it. -/
def command? (registry : Registry η σ) (reference : Reference) (member : String) :
    Except Failure (Nat × DeclaredCommand) :=
  match reference with
  | .command index =>
      match registry.commands[index]? with
      | some command => .ok (index, command)
      | none => .error (.unknown (toString index))
  | other => .error (.noMember other.kind member)

def menu? (registry : Registry η σ) (reference : Reference) (member : String) : Except Failure (Nat × Menu) :=
  match reference with
  | .menu index =>
      match registry.menus[index]? with
      | some menu => .ok (index, menu)
      | none => .error (.unknown (toString index))
  | other => .error (.noMember other.kind member)

def contextKey? (registry : Registry η σ) (reference : Reference) (member : String) :
    Except Failure (Nat × ContextKey) :=
  match reference with
  | .contextKey index =>
      match registry.contextKeys[index]? with
      | some key => .ok (index, key)
      | none => .error (.unknown (toString index))
  | other => .error (.noMember other.kind member)

/-- The id of a command that can be called: a declared one or one of another extension. -/
def callableId? (registry : Registry η σ) (reference : Reference) : Except Failure String :=
  match reference with
  | .external id => .ok id
  | other => (registry.command? other "call").map fun (_, command) => command.descriptor.id

/-- Registers the implementation of a command with the host.  The command counts as registered from then on,
also if the host cannot be reached or refuses. -/
def register (registry : Registry η σ) (reference : Reference) (handler : η) : Attempt η σ Value :=
  match registry.command? reference "register" with
  | .error failure => (.error failure, registry)
  | .ok (index, command) =>
      let commands := registry.commands.set index { command with isRegistered := true }
      { registry with commands }.ask fun host => host.register command.descriptor.id handler

def call (registry : Registry η σ) (reference : Reference) (arguments : List Value) : Attempt η σ Value :=
  match registry.callableId? reference with
  | .error failure => (.error failure, registry)
  | .ok id => (registry.note (.executing id)).ask fun host => host.execute id arguments

/-- Is something registered?  Menus need no registration. -/
def isRegistered (registry : Registry η σ) (reference : Reference) : Except Failure Bool :=
  match reference with
  | .menu _ => .ok true
  | other => (registry.command? other "is_registered").map fun (_, command) => command.isRegistered

/-- Do two values count as the same one, so that the host need not be told? -/
def isCurrent (held value : Value) : Bool :=
  held.typeName == value.typeName && value.same held

/-- Gives a context key a value.  The host is told first, and the key keeps its old value if that fails. -/
def assign (registry : Registry η σ) (reference : Reference) (value : Value) : Attempt η σ Unit :=
  match registry.contextKey? reference "set" with
  | .error failure => (.error failure, registry)
  | .ok (index, key) =>
      if isCurrent key.value value then (.ok (), registry)
      else
        match registry.ask fun host => host.execute "setContext" [.text key.name, value] with
        | (.error failure, registry) => (.error failure, registry)
        | (.ok _, registry) =>
            let contextKeys := registry.contextKeys.set index { key with value }
            (.ok (), { registry with contextKeys }.note (.keySet key.name value))

def value (registry : Registry η σ) (reference : Reference) : Except Failure Value :=
  (registry.contextKey? reference "value").map fun (_, key) => key.value

def missing (registry : Registry η σ) : List DeclaredCommand :=
  registry.commands.filter fun command => !command.isRegistered

/-- Complains about commands that are not registered: through the host if it is attached, and by failing
otherwise. -/
def assertRegistered (registry : Registry η σ) : Attempt η σ Unit :=
  match registry.missing.map DeclaredCommand.display with
  | [] => (.ok (), registry)
  | missing =>
      if registry.host.isSome then
        let message := unregisteredMessage missing
        (registry.note (.notRegistered message)).ask fun host => host.showError message
      else (.error (.unregistered missing), registry)

def package (registry : Registry η σ) : Manifest.Package String :=
  registry.menus.foldl Menu.contribute (registry.commands.foldl DeclaredCommand.contribute {})

/-- The package with documents for texts, as the codecs take it. -/
def document (registry : Registry η σ) : Manifest.Package Document :=
  registry.package.map fun text : String => .text text

/-- Text in messages: a context key by its name, other things by their kind and id. -/
def display (registry : Registry η σ) (reference : Reference) : Except Failure String :=
  match reference with
  | .external id => .ok s!"ExternalCommand({id})"
  | .command _ => (registry.command? reference "id").map fun (_, command) => command.display
  | .menu _ => (registry.menu? reference "id").map fun (_, menu) => s!"Menu({menu.id})"
  | .contextKey _ => (registry.contextKey? reference "key").map fun (_, key) => key.name

end Registry

end Extension
