import Extension.Json.Basic
import Extension.Number.Shortest
import Extension.Text.Wide

namespace Extension.Json

/-! JSON documents as texts.

Only printable characters of ASCII are written as they are; others are written by their UTF-16 units.
-/

/-- How the parts of a document are laid out: in one line, or each on a line of its own. -/
inductive Layout where
  | line
  | indented (width : Nat)
deriving DecidableEq, Repr

def unit (code : Nat) : List Char :=
  '\\' :: 'u' :: Text.hex 4 code

def units (code : Nat) : List Char :=
  if code < 0x10000 then unit code
  else
    let offset := code - 0x10000
    unit (0xd800 + offset / 0x400) ++ unit (0xdc00 + offset % 0x400)

def escapeChar (c : Char) : List Char :=
  if c = '"' then ['\\', '"']
  else if c = '\\' then ['\\', '\\']
  else if c = '\n' then ['\\', 'n']
  else if c = '\r' then ['\\', 'r']
  else if c = '\t' then ['\\', 't']
  else if c = '\x0c' then ['\\', 'f']
  else if c = '\x08' then ['\\', 'b']
  else if ' ' ≤ c ∧ c ≤ '~' then [c]
  else units c.toNat

def escapePoint (point : CodePoint) : List Char :=
  match CodePoint.char? point with
  | some c => escapeChar c
  | none => units point

def quoteText (text : WideText) : String :=
  String.ofList ('"' :: text.points.flatMap escapePoint ++ ['"'])

def floatText : Number.Binary64 → String
  | .nan => "NaN"
  | .infinite negative => if negative then "-Infinity" else "Infinity"
  | finite => finite.text

/-- What stands between two parts, before the first and after the last. -/
def Layout.lineBreak (layout : Layout) (level : Nat) : String :=
  match layout with
  | .line => ""
  | .indented width => String.ofList ('\n' :: List.replicate (width * level) ' ')

def Layout.separator (layout : Layout) (level : Nat) : String :=
  match layout with
  | .line => ", "
  | .indented _ => "," ++ layout.lineBreak level

/-- Parts between brackets; without parts nothing stands between them. -/
def Layout.enclose (layout : Layout) (level : Nat) (left right : String) (parts : List String) : String :=
  if parts.isEmpty then left ++ right
  else
    left ++ layout.lineBreak (level + 1) ++ (layout.separator (level + 1)).intercalate parts ++
      layout.lineBreak level ++ right

mutual

/-- The text of a document that stands `level` containers deep. -/
def write (layout : Layout) (level : Nat) : Json → String
  | .null => "null"
  | .bool b => if b then "true" else "false"
  | .int n => toString n
  | .float x => floatText x
  | .text s => quoteText s
  | .list items => layout.enclose level "[" "]" (writeItems layout (level + 1) items)
  | .dict entries => layout.enclose level "\x7b" "\x7d" (writeEntries layout (level + 1) entries)

def writeItems (layout : Layout) (level : Nat) : List Json → List String
  | [] => []
  | item :: rest => item.write layout level :: writeItems layout level rest

def writeEntries (layout : Layout) (level : Nat) : List (WideText × Json) → List String
  | [] => []
  | (key, value) :: rest =>
      (quoteText key ++ ": " ++ value.write layout level) :: writeEntries layout level rest

end

def compact (document : Json) : String :=
  document.write .line 0

def pretty (width : Nat) (document : Json) : String :=
  document.write (.indented width) 0

end Extension.Json
