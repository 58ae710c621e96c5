import Extension.Yaml.Token.Basic
import Extension.Yaml.Token.Scalar

namespace Extension.Yaml.Scan

/-! Names and directives: anchors, aliases, tags, and the lines that start with a percent sign. -/

def followsName (text : List Char) : Bool :=
  match text with
  | [] => true
  | c :: _ => isSpace c || ['?', ':', ',', ']', '\x7d', '%', '@', '\x60'].contains c

/-- The name of an anchor or alias, behind its sign. -/
def name (text : List Char) : Except Fault (String × List Char) :=
  let (word, rest) := text.span isWord
  if word.isEmpty || !followsName rest then fail .anchor else .ok (String.ofList word, rest)

/-- Is the character one of those that addresses are made of, the percent sign apart? -/
def isAddress (c : Char) : Bool :=
  isWord c || [';', '/', '?', ':', '@', '&', '=', '+', '$', ',', '.', '!', '~', '*', '\'', '(', ')', '[', ']'].contains c

def octets (what : Malformation) : Nat → List Char → Except Fault (List Nat × List Char)
  | 0, text => .ok ([], text)
  | fuel + 1, text =>
      match text with
      | '%' :: digits =>
          match code? 2 0 digits with
          | none => fail what
          | some (octet, rest) => (octets what fuel rest).map fun (more, rest) => (octet :: more, rest)
      | _ => .ok ([], text)

def ofOctets? (octets : List Nat) : Option (List Char) :=
  (String.fromUTF8? (octets.map UInt8.ofNat).toByteArray).map String.toList

def addressChars (what : Malformation) : Nat → List Char → Except Fault (List Char × List Char)
  | 0, text => .ok ([], text)
  | fuel + 1, text =>
      match text with
      | [] => .ok ([], [])
      | c :: rest =>
          if c == '%' then
            match octets what text.length text with
            | .error fault => .error fault
            | .ok (octets, rest) =>
                match ofOctets? octets with
                | none => fail what
                | some chars => (addressChars what fuel rest).map fun (more, rest) => (chars ++ more, rest)
          else if isAddress c then (addressChars what fuel rest).map fun (more, rest) => (c :: more, rest)
          else .ok ([], text)

/-- An address, which has at least one character. -/
def address (what : Malformation) (text : List Char) : Except Fault (String × List Char) := do
  let (chars, rest) ← addressChars what (text.length + 1) text
  if rest.length = text.length then fail what else return (String.ofList chars, rest)

/-- The handle of a tag: a word between exclamation marks, or a single mark before a space. -/
def handle (what : Malformation) (text : List Char) : Except Fault (String × List Char) :=
  match text with
  | '!' :: ' ' :: rest => .ok ("!", ' ' :: rest)
  | '!' :: rest =>
      match rest.span isWord with
      | (word, '!' :: rest) => .ok (String.ofList ('!' :: word ++ ['!']), rest)
      | _ => fail what
  | _ => fail what

def atLineSpace (text : List Char) : Bool :=
  text.head? == some ' ' || atBreak text

/-- Is there a second exclamation mark in the word that starts with one? -/
def hasHandle (text : List Char) : Bool :=
  (text.takeWhile fun c => c != ' ' && !isBreak c).contains '!'

/-- A tag, from its exclamation mark on. -/
def tag (text : List Char) : Except Fault (Token × List Char) := do
  let rest := text.drop 1
  let (token, rest) ← match rest with
    | '<' :: rest => do
        match ← address .tag rest with
        | (suffix, '>' :: rest) => pure (Token.tag none suffix, rest)
        | _ => fail .tag
    | _ =>
        if atSpace rest then pure (Token.tag none "!", rest)
        else do
          let (name, rest) ← if hasHandle rest then handle .tag text else pure ("!", rest)
          let (suffix, rest) ← address .tag rest
          pure (Token.tag (some name) suffix, rest)
  if atLineSpace rest then return (token, rest) else fail .tag

/-- A number of a version, which may be as long as an integer that is read. -/
def digits (text : List Char) : Except Fault (Nat × List Char) :=
  let (run, rest) := text.span isDigit
  if run.isEmpty then fail .directive
  else if Number.maxDigits < run.length then .error (.tooManyDigits run.length)
  else .ok (Timestamp.valueOf run, rest)

/-- A directive, behind its percent sign, with the rest of its line. -/
def directive (text : List Char) : Except Fault (Directive × List Char) := do
  let (word, rest) := text.span isWord
  if word.isEmpty || !atLineSpace rest then fail .directive
  else
    let skip := List.dropWhile (· == ' ')
    let (content, rest) ← match String.ofList word with
      | "YAML" => do
          let (major, rest) ← digits (skip rest)
          match rest with
          | '.' :: rest => do
              let (minor, rest) ← digits rest
              if atLineSpace rest then pure (Directive.version major minor, rest) else fail .directive
          | _ => fail .directive
      | "TAG" => do
          let (name, rest) ← handle .directive (skip rest)
          if rest.head? != some ' ' then fail .directive
          else do
            let (start, rest) ← address .directive (skip rest)
            if atLineSpace rest then pure (Directive.handle name start, rest) else fail .directive
      | _ => pure (Directive.unknown, rest.dropWhile (!isBreak ·))
    return (content, ← restOfLine .directive rest)

end Extension.Yaml.Scan
