import Extension.Json.Text
import Extension.Number.Reading
import Extension.Value.Basic

namespace Extension

open Number

/-! Documents as data formats hold them.

Besides what JSON has there are mappings with keys of any kind, sequences that are fixed or unordered,
byte strings and points in time.
-/

inductive Document where
  | null
  | bool (b : Bool)
  | int (n : Int)
  /-- A double.  A not-a-number is the same only as itself, and the marks tell several of them apart. -/
  | float (x : Binary64) (mark : Nat)
  | text (s : WideText)
  | list (items : List Document)
  | dict (entries : List (Document × Document))
  | tuple (items : List Document)
  | set (items : List Document)
  | bytes (octets : List Nat)
  | moment (text : String)
  /-- A list or mapping that this one is part of. -/
  | loop

inductive ShapeFault where
  | noMember (type member : String)
  | wrongType
  | missingKey (key : String)
  | notAPair (index length : Nat)
  | circular
  /-- An integer with more digits than are written. -/
  | tooManyDigits
deriving DecidableEq, Repr

def ShapeFault.message : ShapeFault → String
  | .noMember type member => s!"'{type}' object has no attribute '{member}'"
  | .wrongType => ""
  | .missingKey key => Text.quoted key
  | .notAPair index length =>
      s!"dictionary update sequence element #{index} has length {length}; 2 is required"
  | .circular => "Circular reference detected"
  | .tooManyDigits => unwrittenText

namespace Document

instance : Inhabited Document := ⟨.null⟩

def typeName : Document → String
  | .null => "NoneType"
  | .bool _ => "bool"
  | .int _ => "int"
  | .float _ _ => "float"
  | .text _ => "str"
  | .list _ => "list"
  | .dict _ => "dict"
  | .tuple _ => "tuple"
  | .set _ => "set"
  | .bytes _ => "bytes"
  | .moment _ => "date"
  | .loop => "list"

def truthy : Document → Bool
  | .null => false
  | .bool b => b
  | .int n => n != 0
  | .float x _ => !x.isZero
  | .text s => !s.isEmpty
  | .list items | .tuple items | .set items => !items.isEmpty
  | .dict entries => !entries.isEmpty
  | .bytes octets => !octets.isEmpty
  | .moment _ | .loop => true

def number? : Document → Option Numeric
  | .bool b => some (.ofBool b)
  | .int n => some (.int n)
  | .float x _ => some (.double x)
  | _ => none

mutual

/-- Equality across types: numbers and truth values by their number, mappings and sets in any order. -/
def same : Document → Document → Bool
  | .null, .null => true
  | .text s, .text t => s == t
  | .list xs, .list ys => sameItems xs ys
  | .tuple xs, .tuple ys => sameItems xs ys
  | .set xs, .set ys => xs.length == ys.length && withinSet xs ys
  | .dict xs, .dict ys => xs.length == ys.length && within xs ys
  | .bytes xs, .bytes ys => xs == ys
  | .moment s, .moment t => s == t
  | .float .nan mark, .float .nan other => mark == other
  | left, right =>
      match left.number?, right.number? with
      | some m, some n => m.same n
      | _, _ => false

def sameItems : List Document → List Document → Bool
  | [], [] => true
  | x :: xs, y :: ys => x.same y && sameItems xs ys
  | _, _ => false

def withinSet : List Document → List Document → Bool
  | [], _ => true
  | x :: xs, ys => ys.any (x.same ·) && withinSet xs ys

def within : List (Document × Document) → List (Document × Document) → Bool
  | [], _ => true
  | (key, value) :: rest, ys =>
      ys.any (fun other => key.same other.1 && value.same other.2) && within rest ys

end

instance : BEq Document := ⟨same⟩

mutual

def isHashable : Document → Bool
  | .list _ | .dict _ | .set _ | .loop => false
  | .tuple items => allHashable items
  | _ => true

def allHashable : List Document → Bool
  | [] => true
  | item :: rest => item.isHashable && allHashable rest

end

/-- The elements, if the document is something that has elements: a text has its characters and a mapping
its keys. -/
def elements : Document → Except ShapeFault (List Document)
  | .list items | .tuple items | .set items => .ok items
  | .text s => .ok (s.points.map fun point => .text ⟨[point]⟩)
  | .dict entries => .ok (entries.map Prod.fst)
  | .bytes octets => .ok (octets.map fun octet => .int (Int.ofNat octet))
  | _ => .error .wrongType

def lookup (entries : List (Document × Document)) (key : String) : Option Document :=
  (entries.find? fun entry => entry.1.same (.text key)).map Prod.snd

/-- The entry of a mapping under a text key; only mappings can be asked. -/
def get? (document : Document) (key : String) : Except ShapeFault (Option Document) :=
  match document with
  | .dict entries => .ok (lookup entries key)
  | other => .error (.noMember other.typeName "get")

def getKey (document : Document) (key : String) : Except ShapeFault Document :=
  match document with
  | .dict entries =>
      match lookup entries key with
      | some value => .ok value
      | none => .error (.missingKey key)
  | _ => .error .wrongType

/-- Gives a key a value, in its place if there is an equal key. -/
def putEntry (entries : List (Document × Document)) (key value : Document) : List (Document × Document) :=
  match entries with
  | [] => [(key, value)]
  | (held, old) :: rest =>
      if held.same key then (held, value) :: rest else (held, old) :: putEntry rest key value

def addElement (held : List Document) (element : Document) : List Document :=
  if held.any (element.same ·) then held else held ++ [element]

def ofTexts (entries : List (String × Document)) : Document :=
  .dict (entries.map fun (key, value) => (.text key, value))

mutual

def ofJson : Json → Document
  | .null => .null
  | .bool b => .bool b
  | .int n => .int n
  | .float x => .float x 0
  | .text s => .text s
  | .list items => .list (ofItems items)
  | .dict entries => .dict (ofEntries entries)

def ofItems : List Json → List Document
  | [] => []
  | item :: rest => ofJson item :: ofItems rest

def ofEntries : List (WideText × Json) → List (Document × Document)
  | [] => []
  | (key, value) :: rest => (.text key, ofJson value) :: ofEntries rest

end

mutual

/-- A value as a document; a context key is held by its name. -/
def ofValue : Value → Document
  | .null => .null
  | .bool b => .bool b
  | .int n => .int n
  | .float x => .float x 0
  | .text s => .text s
  | .list items => .list (ofValues items)
  | .dict entries => .dict (ofFields entries)
  | .contextKey name => .text name

def ofValues : List Value → List Document
  | [] => []
  | item :: rest => ofValue item :: ofValues rest

def ofFields : List (String × Value) → List (Document × Document)
  | [] => []
  | (key, value) :: rest => (.text key, ofValue value) :: ofFields rest

end

def keyText : Document → Except ShapeFault WideText
  | .text s => .ok s
  | .null => .ok "null"
  | .bool b => .ok (if b then "true" else "false")
  | .int n => if isWritten n then .ok (toString n) else .error .tooManyDigits
  | .float x _ => .ok (Json.floatText x)
  | _ => .error .wrongType

mutual

def toJson : Document → Except ShapeFault Json
  | .null => .ok .null
  | .bool b => .ok (.bool b)
  | .int n => if isWritten n then .ok (.int n) else .error .tooManyDigits
  | .float x _ => .ok (.float x)
  | .text s => .ok (.text s)
  | .list items | .tuple items =>
      match itemsToJson items with
      | .error fault => .error fault
      | .ok items => .ok (.list items)
  | .dict entries =>
      match entriesToJson entries with
      | .error fault => .error fault
      | .ok entries => .ok (.dict entries)
  | .set _ | .bytes _ | .moment _ => .error .wrongType
  | .loop => .error .circular

def itemsToJson : List Document → Except ShapeFault (List Json)
  | [] => .ok []
  | item :: rest =>
      match item.toJson, itemsToJson rest with
      | .ok item, .ok rest => .ok (item :: rest)
      | .error fault, _ | _, .error fault => .error fault

def entriesToJson : List (Document × Document) → Except ShapeFault (List (WideText × Json))
  | [] => .ok []
  | (key, value) :: rest =>
      match key.keyText, value.toJson, entriesToJson rest with
      | .ok key, .ok value, .ok rest => .ok ((key, value) :: rest)
      | .error fault, _, _ | _, .error fault, _ | _, _, .error fault => .error fault

end

end Document

end Extension
