import Extension.Yaml.Tag

namespace Extension.Yaml

/-! Which spelling a scalar gets: as it is, between single or between double quotation marks. -/

inductive Style where
  | plain
  | single
  | double
deriving DecidableEq, Repr

namespace Style

def leading : List Char :=
  ['#', ',', '[', ']', '\x7b', '\x7d', '&', '*', '!', '|', '>', '\'', '"', '%', '@', '\x60']

/-- Does a scalar start like a part of a document that it is not? -/
def startsAsSign (text : List Char) : Bool :=
  ['-', '-', '-'].isPrefixOf text || ['.', '.', '.'].isPrefixOf text ||
    match text with
    | c :: rest => leading.contains c || ((c == '?' || c == ':' || c == '-') && atSpace rest)
    | [] => false

/-- Does a scalar hold the sign of a value or of a comment?  `before` is the character before the text. -/
def holdsSign (before : Char) : List Char → Bool
  | [] => false
  | c :: rest => (c == ':' && atSpace rest) || (c == '#' && isSpace before) || holdsSign c rest

/-- Does the first kind of character ever stand right before the second kind? -/
def holdsPair (isFirst isSecond : Char → Bool) : List Char → Bool
  | first :: second :: rest => (isFirst first && isSecond second) || holdsPair isFirst isSecond (second :: rest)
  | _ => false

/-- Only line feeds and the printable characters of ASCII are written as they are. -/
def isSpecial (c : Char) : Bool :=
  !(c == '\n' || (' ' ≤ c && c ≤ '~'))

def isSpaceOrFeed (c : Char) : Bool :=
  c == ' ' || c == '\n'

def isMultiline (text : List Char) : Bool :=
  text.any fun c => c == '\n' || c == '\x85' || c == '\u2028' || c == '\u2029'

def allowsPlain (text : List Char) : Bool :=
  !(isMultiline text || text.any isSpecial || startsAsSign text ||
    (match text with
      | [] => false
      | first :: rest => isSpaceOrFeed first || holdsSign first rest) ||
    (match text.getLast? with
      | none => false
      | some last => isSpaceOrFeed last))

def allowsSingle (text : List Char) : Bool :=
  !(text.any isSpecial || holdsPair (· == '\n') (· == ' ') text || holdsPair (· == ' ') (· == '\n') text)

/-- The spelling of a text, which may have to stand in one line as a key. -/
def ofText (text : WideText) (isKey : Bool) : Style :=
  let chars := text.chars
  if Tag.ofPlain text = .str && allowsPlain chars then .plain
  else if allowsSingle chars && !(isKey && isMultiline chars) then .single
  else .double

def fitsKey (text : WideText) : Bool :=
  let chars := text.chars
  !chars.isEmpty && !isMultiline chars && chars.length + 5 < 128

end Style

end Extension.Yaml
