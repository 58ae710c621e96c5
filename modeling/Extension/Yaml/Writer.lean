import Extension.Json.Basic
import Extension.Number.Shortest
import Extension.Text.Wide
import Extension.Yaml.Layout
import Extension.Yaml.Style

namespace Extension.Yaml

open Number

/-! Documents as YAML.

Nested documents are indented by two columns, except that a list under a key keeps the indentation of the
key.  Lines are broken at a space behind column eighty.
-/

/-- The column behind which lines are broken. -/
def bestWidth : Nat := 80

/-- Runs of characters that are spaces, line feeds, or neither. -/
inductive Run where
  | spaces (count : Nat)
  | feeds (count : Nat)
  | word (chars : List Char)
deriving DecidableEq, Repr

def Run.ofChar (c : Char) : Run :=
  if c = ' ' then .spaces 1 else if c = '\n' then .feeds 1 else .word [c]

def runs : List Char → List Run
  | [] => []
  | c :: rest =>
      match Run.ofChar c, runs rest with
      | .spaces _, .spaces count :: more => .spaces (count + 1) :: more
      | .feeds _, .feeds count :: more => .feeds (count + 1) :: more
      | .word _, .word chars :: more => .word (c :: chars) :: more
      | first, more => first :: more

/-- Writes a text without quotation marks.  A single space may become a line break. -/
def writePlain (page : Page) (indent : Nat) (mayBreak : Bool) (text : List Char) : Page :=
  let page := page.put (if page.isSpaced then [] else [' '])
  (runs text).foldl (fun page run =>
    match run with
    | .word chars => page.put chars
    | .feeds count => page.put (List.replicate count '\n')
    | .spaces count =>
        if count = 1 ∧ bestWidth < page.column ∧ mayBreak then
          { page.indent indent with isSpaced := false, isOpening := false }
        else page.put (List.replicate count ' '))
    { page with isSpaced := false, isOpening := false }

/-- Writes the runs of a text between single quotation marks.  The first run and the last are never
broken. -/
def writeSingleRuns (page : Page) (indent : Nat) (mayBreak isFirst : Bool) : List Run → Page
  | [] => page
  | .word chars :: rest =>
      let quoted := chars.flatMap fun c => if c = '\'' then ['\'', '\''] else [c]
      writeSingleRuns (page.put quoted) indent mayBreak false rest
  | .feeds count :: rest =>
      let page := (List.range (count + 1)).foldl (fun page _ => page.lineBreak) page
      writeSingleRuns (page.indent indent) indent mayBreak false rest
  | .spaces count :: rest =>
      let page :=
        if count = 1 ∧ bestWidth < page.column ∧ mayBreak ∧ !isFirst ∧ !rest.isEmpty then page.indent indent
        else page.put (List.replicate count ' ')
      writeSingleRuns page indent mayBreak false rest

def writeSingle (page : Page) (indent : Nat) (mayBreak : Bool) (text : List Char) : Page :=
  (writeSingleRuns (page.sign ['\''] true) indent mayBreak true (runs text)).sign ['\''] false

def escapeLetters : List (Char × Char) :=
  [('\x00', '0'), ('\x07', 'a'), ('\x08', 'b'), ('\t', 't'), ('\n', 'n'), ('\x0b', 'v'), ('\x0c', 'f'),
    ('\r', 'r'), ('\x1b', 'e'), ('"', '"'), ('\\', '\\'), ('\x85', 'N'), ('\xa0', '_'), ('\u2028', 'L'),
    ('\u2029', 'P')]

def upperHex (width code : Nat) : List Char :=
  (Text.hex width code).map Char.toUpper

def escape (point : CodePoint) : List Char :=
  match escapeLetters.lookup (CodePoint.shown point) with
  | some letter => ['\\', letter]
  | none =>
      let code := point.val
      if code ≤ 0xff then '\\' :: 'x' :: upperHex 2 code
      else if code ≤ 0xffff then '\\' :: 'u' :: upperHex 4 code
      else '\\' :: 'U' :: upperHex 8 code

def needsEscape (c : Char) : Bool :=
  c == '"' || c == '\\' || !(' ' ≤ c && c ≤ '~')

/-- Writes the rest of a text between double quotation marks.  `pending` holds characters that are not
written yet, the last one first.  A line may be broken at a space or next to an escaped code point, but not
next to the ends of the text. -/
def writeDoubleRest (page : Page) (indent : Nat) (mayBreak isFirst : Bool) (pending : List Char) :
    List CodePoint → Page
  | [] => page.put pending.reverse
  | point :: rest =>
      let c := CodePoint.shown point
      let escaped := needsEscape c
      let page := if escaped then (page.put pending.reverse).put (escape point) else page
      let held := if escaped then [] else pending
      let width := if escaped then bestWidth + 1 else bestWidth
      let breaks := !isFirst && !rest.isEmpty && (c == ' ' || held.isEmpty) &&
        decide (width < page.column + held.length) && mayBreak
      if breaks then
        let page := (page.put (held.reverse ++ ['\\'])).indent indent
        let next := if escaped then rest.head?.map CodePoint.shown else some c
        let page := { page with isSpaced := false, isOpening := false }
        let page := if next = some ' ' then page.put ['\\'] else page
        writeDoubleRest page indent mayBreak false (if escaped then [] else [c]) rest
      else writeDoubleRest page indent mayBreak false (if escaped then [] else c :: held) rest

def writeDouble (page : Page) (indent : Nat) (mayBreak : Bool) (text : WideText) : Page :=
  (writeDoubleRest (page.sign ['"'] true) indent mayBreak true [] text.points).sign ['"'] false

def writeText (page : Page) (indent : Nat) (isKey : Bool) (text : WideText) : Page :=
  match Style.ofText text isKey with
  | .plain => writePlain page indent (!isKey) text.chars
  | .single => writeSingle page indent (!isKey) text.chars
  | .double => writeDouble page indent (!isKey) text

/-- A double; an exponent always follows a point. -/
def floatText : Binary64 → String
  | .nan => ".nan"
  | .infinite negative => if negative then "-.inf" else ".inf"
  | finite =>
      let chars := finite.text.toList
      if chars.contains '.' then finite.text
      else String.ofList (chars.flatMap fun c => if c = 'e' then ['.', '0', 'e'] else [c])

def deeper : Option Nat → Nat
  | none => 0
  | some width => width + 2

mutual

/-- Writes a document.  `indent` is the indentation around it, which is missing at the top. -/
def write (page : Page) (indent : Option Nat) (underKey : Bool) : Json → Page
  | .null => writePlain page (inside indent) true "null".toList
  | .bool b => writePlain page (inside indent) true (if b then "true" else "false").toList
  | .int n => writePlain page (inside indent) true (toString n).toList
  | .float x => writePlain page (inside indent) true (floatText x).toList
  | .text s => writeText page (inside indent) false s
  | .list [] => page.sign ['[', ']'] true
  | .list items => writeItems page (if underKey && !page.isOpening then indent.getD 0 else deeper indent) items
  | .dict [] => page.sign ['\x7b', '\x7d'] true
  | .dict entries => writeEntries page (deeper indent) entries
where
  /-- The indentation of a broken scalar. -/
  inside (indent : Option Nat) : Nat := indent.getD 0 + 2

def writeItems (page : Page) (indent : Nat) : List Json → Page
  | [] => page
  | item :: rest =>
      let page := (page.indent indent).sign ['-'] true true
      writeItems (write page (some indent) false item) indent rest

def writeEntries (page : Page) (indent : Nat) : List (WideText × Json) → Page
  | [] => page
  | (key, value) :: rest =>
      let page := page.indent indent
      let page :=
        if Style.fitsKey key then (writeText page (indent + 2) true key).sign [':'] false
        else
          let page := writeText (page.sign ['?'] true true) (indent + 2) false key
          (page.indent indent).sign [':'] true true
      writeEntries (write page (some indent) true value) indent rest

end

/-- The document as YAML.  A scalar without quotation marks that stands alone has an end mark. -/
def ofJson (document : Json) : String :=
  let page := (write {} none false document).indent 0
  let isOpen : Bool := match document with
    | .list _ | .dict _ => false
    | .text s => Style.ofText s false == .plain
    | _ => true
  page.text ++ if isOpen then "...\n" else ""

end Extension.Yaml
