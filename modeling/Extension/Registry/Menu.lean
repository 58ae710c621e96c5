import Extension.Registry.Basic

namespace Extension.Registry

open Decision

/-! Adding items to menus.

The condition of an item is compiled when the item is added, so that a rule that cannot be compiled is found
at once.  A clause written by hand is kept as it is, even if it cannot be read.
-/

variable {η σ ρ : Type} (step : ρ → Move ρ) (environment : Environment)

/-- The clause of a condition, with the notices on the way to it. -/
def resolve (condition : Condition ρ) : Except Failure String × List Notice :=
  match condition with
  | .clause text =>
      match Clause.parse text with
      | .ok _ => (.ok text, [])
      | .error refused => (.ok text, [.doubtful text refused.fault])
  | .unsupported type => (.error (.noMember type "strip"), [])
  | .expression expression =>
      let explored := expression.explore step environment
      match explored.outcome with
      | .error fault => (.error (.fault fault), explored.compileNotices)
      | .ok tree => (.ok tree.clause, explored.compileNotices ++ [.itemCompiled expression.display tree.clause])

def resolveOptional (condition : Option (Condition ρ)) : Except Failure (Option String) × List Notice :=
  match condition with
  | none => (.ok none, [])
  | some condition =>
      let (clause, notices) := resolve step environment condition
      (clause.map some, notices)

/-- The ids of an item's commands.  Only declared commands can be in a menu. -/
def itemIds (registry : Registry η σ) (item : Item ρ) : Except Failure (String × Option String) := do
  let (_, command) ← registry.command? item.command "descriptor"
  match item.alt with
  | none => return (command.descriptor.id, none)
  | some alt =>
      let (_, alt) ← registry.command? alt "descriptor"
      return (command.descriptor.id, some alt.descriptor.id)

def appendItem (registry : Registry η σ) (index : Nat) (menu : Menu) (item : Manifest.MenuItem String) :
    Registry η σ :=
  { registry with menus := registry.menus.set index { menu with items := menu.items ++ [item] } }

def addItem (registry : Registry η σ) (reference : Reference) (group : Option String) (item : Item ρ) :
    Attempt η σ Unit :=
  match registry.menu? reference "add" with
  | .error failure => (.error failure, registry)
  | .ok (index, menu) =>
      match registry.itemIds item with
      | .error failure => (.error failure, registry)
      | .ok (command, alt) =>
          let (clause, notices) := resolveOptional step environment item.condition
          let registry := registry.noteAll notices
          match clause with
          | .error failure => (.error failure, registry)
          | .ok when => (.ok (), registry.appendItem index menu { command, alt, when, group })

def add (registry : Registry η σ) (menu : Reference) (item : Item ρ) : Attempt η σ Unit :=
  registry.addItem step environment menu none item

/-- Adds items one after the other, all in one group.  The items before one that fails stay in the menu. -/
def addAll (registry : Registry η σ) (menu : Reference) (group : String) : List (Item ρ) → Attempt η σ Unit
  | [] => (.ok (), registry)
  | item :: items =>
      match registry.addItem step environment menu (some group) item with
      | (.error failure, registry) => (.error failure, registry)
      | (.ok (), registry) => addAll registry menu group items

def addGroup (registry : Registry η σ) (menu : Reference) (group : String) (items : List (Item ρ)) :
    Attempt η σ Unit :=
  match registry.menu? menu "group" with
  | .error failure => (.error failure, registry)
  | .ok _ => registry.addAll step environment menu group items

end Extension.Registry
