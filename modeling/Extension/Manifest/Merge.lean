import Extension.Document.Basic

namespace Extension.Manifest

/-! Laying a generated fragment over a manifest that is already there.

Commands and menus of the fragment replace those of the same id, events are joined, and everything else is
left as it is.  Both documents may have any shape, and the merge says what it cannot work with.
-/

def isScalar : Json → Bool
  | .list _ | .dict _ => false
  | _ => true

/-- The elements of a document: the characters of a text, the keys of an object. -/
def elements : Json → Except ShapeFault (List Json)
  | .list items => .ok items
  | .text s => .ok (s.points.map fun point => .text ⟨[point]⟩)
  | .dict entries => .ok (entries.map fun entry => .text entry.1)
  | _ => .error .wrongType

/-- The entries of an object while it is worked on.  Entries that come from a list of pairs may have keys
that are no texts. -/
abbrev Pairs := List (Json × Json)

namespace Pairs

def ofEntries (entries : Entries Json WideText) : Pairs :=
  entries.map fun (key, value) => (.text key, value)

def lookup (pairs : Pairs) (key : String) : Option Json :=
  (pairs.find? fun pair => pair.1.same (.text key)).map Prod.snd

/-- Gives a key a value: in its place if there is an equal key, at the end otherwise. -/
def put (pairs : Pairs) (key value : Json) : Pairs :=
  match pairs with
  | [] => [(key, value)]
  | (held, old) :: rest => if held.same key then (held, value) :: rest else (held, old) :: put rest key value

def putAll (pairs more : Pairs) : Pairs :=
  more.foldl (fun held (key, value) => held.put key value) pairs

def keyText : Json → WideText
  | .text s => s
  | .null => "null"
  | .bool b => if b then "true" else "false"
  | .int n => toString n
  | .float x => Json.floatText x
  | .list _ | .dict _ => ""

def toJson (pairs : Pairs) : Json :=
  .dict (pairs.map fun (key, value) => (keyText key, value))

end Pairs

/-- Reads entries from documents that have to be pairs of a key and a value. -/
def readPairs (held : Pairs) (index : Nat) : List Json → Except ShapeFault Pairs
  | [] => .ok held
  | document :: rest =>
      match elements document with
      | .error fault => .error fault
      | .ok [key, value] =>
          if isScalar key then readPairs (held.put key value) (index + 1) rest else .error .wrongType
      | .ok other => .error (.notAPair index other.length)

def entriesOf (document : Json) : Except ShapeFault Pairs :=
  match document with
  | .dict entries => .ok (.ofEntries entries)
  | other =>
      match elements other with
      | .error fault => .error fault
      | .ok items => readPairs [] 0 items

/-- The entry of an object, if it has it; only objects can be asked. -/
def get? (document : Json) (key : String) : Except ShapeFault (Option Json) :=
  match document with
  | .dict entries => .ok (entries.lookup (.ofString key))
  | other => .error (.noMember other.typeName "get")

def isWithin (word : List CodePoint) : List CodePoint → Bool
  | [] => word.isEmpty
  | point :: rest => word.isPrefixOf (point :: rest) || isWithin word rest

/-- Does a document hold a section?  A text holds the words in it. -/
def hasSection (document : Json) (name : String) : Except ShapeFault Bool :=
  match document with
  | .dict entries => .ok (entries.lookup (.ofString name)).isSome
  | .list items => .ok (items.any (·.same (.text name)))
  | .text s => .ok (isWithin (WideText.ofString name).points s.points)
  | _ => .error .wrongType

def getSection (document : Json) (name : String) : Except ShapeFault Json :=
  match document with
  | .dict entries =>
      match entries.lookup (.ofString name) with
      | some value => .ok value
      | none => .error (.missingKey name)
  | _ => .error .wrongType

def commandId (command : Json) : Except ShapeFault Json :=
  match getSection command "command" with
  | .error fault => .error fault
  | .ok id => if isScalar id then .ok id else .error .wrongType

/-- Is the command that is already there kept beside generated commands of these ids? -/
def isKept (ids : List Json) (command : Json) : Except ShapeFault Bool :=
  match get? command "command" with
  | .error fault => .error fault
  | .ok id? =>
      let id := id?.getD .null
      if isScalar id then .ok (!ids.any (·.same id)) else .error .wrongType

/-- The events that are there, and each new one once. -/
def joinEvents (events new : List Json) : List Json :=
  new.foldl (fun held event => if held.any (event.same ·) then held else held ++ [event]) events

/-- Puts the generated commands behind those that are kept. -/
def mergeCommands (contributes : Pairs) (generated : Json) : Except ShapeFault Pairs := do
  if !(← hasSection generated "commands") then return contributes
  let commands ← getSection generated "commands"
  let ids ← (← elements commands).mapM commandId
  let kept ← (← elements ((contributes.lookup "commands").getD (.list []))).filterM (isKept ids)
  match commands with
  | .list items => return contributes.put (.text "commands") (.list (kept ++ items))
  | _ => throw .wrongType

/-- Lays the generated menus over those that are there. -/
def mergeMenus (contributes : Pairs) (generated : Json) : Except ShapeFault Pairs := do
  if !(← hasSection generated "menus") then return contributes
  let menus ← entriesOf ((contributes.lookup "menus").getD (.dict []))
  let new ← entriesOf (← getSection generated "menus")
  return contributes.put (.text "menus") (menus.putAll new).toJson

/-- Lays a fragment over a manifest. -/
def merge (existing fragment : Json) : Except ShapeFault Json := do
  let merged ← entriesOf existing
  let events ← elements ((← get? existing "activationEvents").getD (.list []))
  let new ← elements ((← get? fragment "activationEvents").getD (.list []))
  let contributes ← entriesOf ((← get? existing "contributes").getD (.dict []))
  let generated := (← get? fragment "contributes").getD (.dict [])
  let contributes ← mergeCommands contributes generated
  let contributes ← mergeMenus contributes generated
  return ((merged.put (.text "activationEvents") (.list (joinEvents events new))).put (.text "contributes")
    contributes.toJson).toJson

end Extension.Manifest
