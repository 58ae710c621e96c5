import Extension.Folder
import Extension.Json.Reader
import Extension.Json.Text
import Extension.Manifest.Merge

namespace Extension.Manifest

/-! Merging a fragment into a manifest that is kept in a file.

The file is read and merged in full before it is opened for writing, which empties it.  `update` says this step by
step, and `updateFile` what it comes to.
-/

inductive UpdateFault where
  | missingFile (name : String)
  | unreadable (fault : Json.ReadFault)
  | shape (fault : ShapeFault)
deriving DecidableEq, Repr

def UpdateFault.message : UpdateFault → String
  | .missingFile name => s!"No such file or directory: {name}"
  | .unreadable fault => fault.message
  | .shape fault => fault.message

/-- The lines of a file end with a line feed, whatever ends them in the file. -/
def lineFeeds : List Char → List Char
  | '\r' :: '\n' :: rest => '\n' :: lineFeeds rest
  | '\r' :: rest => '\n' :: lineFeeds rest
  | c :: rest => c :: lineFeeds rest
  | [] => []

def readFile (files : Files) (name : String) : Except UpdateFault Json :=
  match files.lookup name with
  | none => .error (.missingFile name)
  | some content => (Json.parse (String.ofList (lineFeeds content.toList))).mapError .unreadable

def fileText (manifest : Json) : String :=
  manifest.pretty 2 ++ "\n"

/-- Work on files.  What a step has done to them stays, also when a later step fails. -/
abbrev Work (α : Type) := ExceptT UpdateFault (StateM Files) α

namespace Work

def attempt {α ε : Type} (cause : ε → UpdateFault) : Except ε α → Work α
  | .ok value => pure value
  | .error reason => throw (cause reason)

/-- Opens a file for writing, which empties it. -/
def openFile (name : String) : Work Unit :=
  modify (·.put name "")

/-- Writes a text behind what the file holds. -/
def append (name text : String) : Work Unit :=
  modify fun files => files.put name ((files.lookup name).getD "" ++ text)

end Work

/-- The number of elements of a document. -/
def size : Json → Except ShapeFault Nat
  | .list items => .ok items.length
  | .text s => .ok s.points.length
  | .dict entries => .ok entries.length
  | _ => .error .wrongType

def countEvents (fragment : Json) : Except ShapeFault Nat := do
  size ((← get? fragment "activationEvents").getD (.list []))

/-- Merges a fragment into the manifest in a file.  Gives the merged manifest and the number of the fragment's
events. -/
def update (name : String) (fragment : Json) : Work (Json × Nat) := do
  let existing ← Work.attempt id (readFile (← get) name)
  let merged ← Work.attempt .shape (merge existing fragment)
  Work.openFile name
  Work.append name (merged.pretty 2)
  Work.append name "\n"
  let events ← Work.attempt .shape (countEvents fragment)
  return (merged, events)

/-- Merges a fragment into the manifest in a file.  Gives the merged manifest and the files after it. -/
def updateFile (files : Files) (name : String) (fragment : Json) :
    Except UpdateFault Json × Files :=
  match readFile files name with
  | .error fault => (.error fault, files)
  | .ok existing =>
      match merge existing fragment with
      | .error fault => (.error (.shape fault), files)
      | .ok merged => (.ok merged, files.put name (fileText merged))

end Extension.Manifest
