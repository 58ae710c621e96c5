import Extension.Entries

namespace Extension

/-! Files by name, and where paths lead.

Names are relative to the working folder and hold no empty steps and no dots.  A name that starts with `..`
belongs to a place around the working folder, and one that starts with a slash to a place that is counted from
the root.  Apart from the working folder, those around it and the root, folders are there as far as a file has
a name in them.
-/

abbrev Files := Entries String

inductive PathFault where
  | missing
  | isFolder
  | notAFolder
  | tooLong
  | nullCharacter
deriving DecidableEq, Repr

namespace Folder

/-- A step of a path: a name, or nothing, a dot or two dots. -/
abbrev Step := List Char

/-- The steps from the working folder to a place.  Those to a place that is counted from the root start with
an empty step. -/
abbrev Place := List Step

/-- One more than the number of bytes that a path may have. -/
def maxPathSize : Nat := 4096

def maxStepSize : Nat := 255

def steps : List Char → List Step
  | [] => [[]]
  | '/' :: rest => [] :: steps rest
  | c :: rest =>
      match steps rest with
      | [] => [[c]]
      | step :: more => (c :: step) :: more

def join (place : Place) : String :=
  String.ofList (List.intercalate ['/'] place)

def isIdle (step : Step) : Bool :=
  step == [] || step == ['.']

def isUp (step : Step) : Bool :=
  step == ['.', '.']

def origin (path : String) : Place :=
  match path.toList with
  | '/' :: _ => [[]]
  | _ => []

def move (place : Place) (step : Step) : Place :=
  if isIdle step then place
  else if !isUp step || place.all isUp then place ++ [step]
  else if place == [[]] then place
  else place.dropLast

/-- A path without its empty steps and its single dots. -/
def normalPath (path : String) : String :=
  match path.toList, (steps path.toList).filter (!isIdle ·) with
  | '/' :: _, found => "/" ++ join found
  | _, [] => "."
  | _, found => join found

def isFolder (files : Files) (place : Place) : Bool :=
  place.all isUp || place == [[]] ||
    files.any fun file => (join place ++ "/").toList.isPrefixOf file.1.toList

def isTooLong (step : Step) : Bool :=
  maxStepSize < (String.ofList step).utf8ByteSize

def enter (files : Files) (place : Place) (step : Step) : Except PathFault Place :=
  if isTooLong step then .error .tooLong
  else
    let next := move place step
    if isFolder files next then .ok next
    else if (files.lookup (join next)).isSome then .error .notAFolder
    else .error .missing

def descend (files : Files) (place : Place) (steps : List Step) : Except PathFault Place :=
  steps.foldlM (enter files) place

/-- The name of the file that the last of some steps leads to.  That file may be missing. -/
def follow (files : Files) (place : Place) (steps : List Step) : Except PathFault String := do
  let place ← descend files place steps.dropLast
  let last := steps.getLastD []
  let found := move place last
  if isTooLong last then throw .tooLong
  else if isFolder files found then throw .isFolder
  else return join found

def check (path : String) : Except PathFault Unit :=
  if path.toList.contains '\x00' then .error .nullCharacter
  else if maxPathSize ≤ path.utf8ByteSize then .error .tooLong
  else .ok ()

/-- The name of the file that a path leads to, whether or not it is there.  Empty steps and single dots mean
nothing. -/
def locate (files : Files) (path : String) : Except PathFault String := do
  let path := normalPath path
  check path
  follow files (origin path) ((steps path.toList).filter (!isIdle ·))

/-- The name of the file that a path leads to for writing it.  The path is taken as it is: each of its dots
leads through a folder, and with a slash at its end it can only lead to a folder. -/
def locateForWriting (files : Files) (path : String) : Except PathFault String := do
  check path
  let all := steps path.toList
  let named := (all.reverse.dropWhile (· == [])).reverse
  if named.length < all.length then
    let _ ← descend files (origin path) named.dropLast
    throw .isFolder
  else follow files (origin path) all

/-- The name of the place that a path leads to if all its steps but the last lead through folders. -/
def name (path : String) : String :=
  join ((steps path.toList).foldl move (origin path))

/-- Files that stand for the folders that a path leads through, so that they are there. -/
def onTheWay (path : String) : Files :=
  let all := steps path.toList
  (List.range all.length).map fun count => (join ((all.take count).foldl move (origin path)) ++ "/", "")

end Folder

end Extension
