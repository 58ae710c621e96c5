import Extension.Document.Order
import Extension.Manifest.Package

namespace Extension.Manifest

/-! Packages as documents, written and read.

Missing fields and fields that are null are left out, events are sorted, and the sections of the
`contributes` object appear only if they have content.
-/

inductive CodecFault where
  | unsupportedIcon (type : String)
  | shape (fault : ShapeFault)
deriving DecidableEq, Repr

def CodecFault.message : CodecFault → String
  | .unsupportedIcon type => s!"Unsupported icon type: {type}"
  | .shape fault => fault.message

/-- A value as an icon: null is none, a text is a path, and nothing else can be one. -/
def Icon.ofValue : Value → Option (Icon String)
  | .null => none
  | .text place => some (.path place)
  | other => some (.unsupported other.typeText)

/-- The fields that hold something. -/
def compact (fields : List (String × Option Document)) : Document :=
  .ofTexts (fields.filterMap fun (name, value?) =>
    match value? with
    | none | some .null => none
    | some value => some (name, value))

def ThemeMap.document (themes : ThemeMap Document) : Document :=
  compact [("light", themes.light), ("dark", themes.dark), ("highContrast", themes.highContrast),
    ("highContrastDark", themes.highContrastDark)]

def Icon.document : Icon Document → Except CodecFault Document
  | .path text => .ok text
  | .themes table => .ok table.document
  | .unsupported type => .error (.unsupportedIcon type)

def iconDocument : Option (Icon Document) → Except CodecFault (Option Document)
  | none => .ok none
  | some icon => icon.document.map some

def Command.document (command : Command Document) : Except CodecFault Document :=
  match iconDocument command.icon with
  | .error fault => .error fault
  | .ok icon =>
      .ok (compact [("command", some command.id), ("title", command.title), ("category", command.category),
        ("icon", icon)])

def MenuItem.document (item : MenuItem Document) : Document :=
  compact [("command", some item.command), ("alt", item.alt), ("when", item.when), ("group", item.group)]

def Package.document (package : Package Document) : Except CodecFault Document := do
  let commands ← package.commands.mapM Command.document
  let menus := package.menus.map fun (id, items) => (id, Document.list (items.map MenuItem.document))
  let events ← (Document.sort package.events).mapError .shape
  let contributes :=
    (if commands.isEmpty then [] else [("commands", Document.list commands)]) ++
      (if menus.isEmpty then [] else [("menus", Document.dict menus)])
  return .ofTexts [("activationEvents", .list events), ("contributes", .ofTexts contributes)]

def Package.toJson (package : Package Document) : Except CodecFault Json := do
  (← package.document).toJson.mapError .shape

/-- A field that may be missing; null counts as missing. -/
def field? (document : Document) (name : String) : Except ShapeFault (Option Document) := do
  match ← document.get? name with
  | none | some .null => return none
  | some value => return some value

def readIcon (document : Option Document) : Except ShapeFault (Option (Icon Document)) :=
  match document with
  | none => .ok none
  | some (.text place) => .ok (some (.path (.text place)))
  | some other => do
      let light ← field? other "light"
      let dark ← field? other "dark"
      let highContrast ← field? other "highContrast"
      let highContrastDark ← field? other "highContrastDark"
      return some (.themes { light, dark, highContrast, highContrastDark })

def readCommand (document : Document) : Except ShapeFault (Command Document) := do
  let id ← document.getKey "command"
  let title ← field? document "title"
  let category ← field? document "category"
  let icon ← readIcon (← field? document "icon")
  return { id, title, category, icon }

def readMenuItem (document : Document) : Except ShapeFault (MenuItem Document) := do
  let command ← document.getKey "command"
  let alt ← field? document "alt"
  let when ← field? document "when"
  let group ← field? document "group"
  return { command, alt, when, group }

/-- The distinct elements of a document, which must all be fit for a set. -/
def readEvents (document : Document) : Except ShapeFault (List Document) := do
  let events ← document.elements
  if events.all Document.isHashable then return events.foldl Document.addElement []
  else throw .wrongType

def readMenus (document : Document) : Except ShapeFault (List (Document × List (MenuItem Document))) :=
  match document with
  | .dict entries => entries.mapM fun (id, items) => do
      return (id, ← (← items.elements).mapM readMenuItem)
  | other => .error (.noMember other.typeName "items")

def Package.ofDocument (document : Document) : Except ShapeFault (Package Document) := do
  let contributes := (← document.get? "contributes").getD (.dict [])
  let events ← readEvents ((← document.get? "activationEvents").getD (.list []))
  let commands ← (← ((← contributes.get? "commands").getD (.list [])).elements).mapM readCommand
  let menus ← readMenus ((← contributes.get? "menus").getD (.dict []))
  return { events, commands, menus }

end Extension.Manifest
