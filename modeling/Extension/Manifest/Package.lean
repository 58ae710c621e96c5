namespace Extension.Manifest

/-! What an extension adds to its manifest: activation events, commands and menu items.

The texts are of a type `α`, so that the same records hold declared texts and whatever a document has in
their place.
-/

structure ThemeMap (α : Type) where
  light : Option α := none
  dark : Option α := none
  highContrast : Option α := none
  highContrastDark : Option α := none
deriving DecidableEq, Repr

inductive Icon (α : Type) where
  | path (text : α)
  | themes (table : ThemeMap α)
  | unsupported (type : String)
deriving DecidableEq, Repr

structure Command (α : Type) where
  id : α
  title : Option α := none
  category : Option α := none
  icon : Option (Icon α) := none
deriving DecidableEq, Repr

structure MenuItem (α : Type) where
  command : α
  alt : Option α := none
  when : Option α := none
  group : Option α := none
deriving DecidableEq, Repr

/-- The parts of a manifest.  The events are a set; menus stand in the order of their first use. -/
structure Package (α : Type) where
  events : List α := []
  commands : List (Command α) := []
  menus : List (α × List (MenuItem α)) := []
deriving DecidableEq, Repr

variable {α β γ : Type} (f : α → β)

def ThemeMap.map (themes : ThemeMap α) : ThemeMap β :=
  { light := themes.light.map f
    dark := themes.dark.map f
    highContrast := themes.highContrast.map f
    highContrastDark := themes.highContrastDark.map f }

def Icon.map : Icon α → Icon β
  | .path text => .path (f text)
  | .themes table => .themes (table.map f)
  | .unsupported type => .unsupported type

def Command.map (command : Command α) : Command β :=
  { id := f command.id
    title := command.title.map f
    category := command.category.map f
    icon := command.icon.map (Icon.map f) }

def MenuItem.map (item : MenuItem α) : MenuItem β :=
  { command := f item.command
    alt := item.alt.map f
    when := item.when.map f
    group := item.group.map f }

def Package.map (package : Package α) : Package β :=
  { events := package.events.map f
    commands := package.commands.map (Command.map f)
    menus := package.menus.map fun (id, items) => (f id, items.map (MenuItem.map f)) }

section Composition

variable (g : β → γ)

@[simp] theorem ThemeMap.map_map (themes : ThemeMap α) : (themes.map f).map g = themes.map (g ∘ f) := by
  simp [map]

@[simp] theorem Icon.map_map (icon : Icon α) : (icon.map f).map g = icon.map (g ∘ f) := by
  cases icon <;> simp [map]

@[simp] theorem Command.map_map (command : Command α) : (command.map f).map g = command.map (g ∘ f) := by
  simp [map, Function.comp_def]

@[simp] theorem MenuItem.map_map (item : MenuItem α) : (item.map f).map g = item.map (g ∘ f) := by
  simp [map]

@[simp] theorem Package.map_map (package : Package α) : (package.map f).map g = package.map (g ∘ f) := by
  simp [map, Function.comp_def]

end Composition

namespace Package

def addEvent [BEq α] (package : Package α) (event : α) : Package α :=
  if package.events.contains event then package
  else { package with events := package.events ++ [event] }

def addCommand (package : Package α) (command : Command α) : Package α :=
  { package with commands := package.commands ++ [command] }

/-- Appends items to a menu, which is created on first use. -/
def extendMenu [BEq α] (package : Package α) (id : α) (items : List (MenuItem α)) : Package α :=
  { package with
    menus :=
      if package.menus.any (·.1 == id) then
        package.menus.map fun (held, old) => if held == id then (held, old ++ items) else (held, old)
      else package.menus ++ [(id, items)] }

end Package

end Extension.Manifest
