import Extension.Yaml.Fault

namespace Extension.Yaml.Scan

/-! Scalars in their four spellings: plain, between quotation marks, and as a block of lines. -/

/-- A line break and what it reads as: a line feed, or one of the two separators of Unicode. -/
def lineBreak? : List Char → Option (Char × List Char)
  | '\r' :: '\n' :: rest => some ('\n', rest)
  | c :: rest =>
      if c == '\u2028' || c == '\u2029' then some (c, rest)
      else if isBreak c then some ('\n', rest)
      else none
  | [] => none

def atSeparator (text : List Char) : Bool :=
  (['-', '-', '-'].isPrefixOf text || ['.', '.', '.'].isPrefixOf text) && atSpace (text.drop 3)

/-- What lines that follow each other read as: a single break as a space, more of them without the first. -/
def joinLines (first : Char) (more : List Char) : List Char :=
  if first ≠ '\n' then first :: more else if more.isEmpty then [' '] else more

/-! ## Between quotation marks -/

def escapes : List (Char × Char) :=
  [('0', '\x00'), ('a', '\x07'), ('b', '\x08'), ('t', '\t'), ('\t', '\t'), ('n', '\n'), ('v', '\x0b'),
    ('f', '\x0c'), ('r', '\r'), ('e', '\x1b'), (' ', ' '), ('"', '"'), ('\\', '\\'), ('/', '/'), ('N', '\x85'),
    ('_', '\xa0'), ('L', '\u2028'), ('P', '\u2029')]

def codeLengths : List (Char × Nat) := [('x', 2), ('u', 4), ('U', 8)]

/-- The value of exactly so many hexadecimal digits. -/
def code? : Nat → Nat → List Char → Option (Nat × List Char)
  | 0, value, text => some (value, text)
  | count + 1, value, text =>
      match text with
      | c :: rest => (digitIn? 16 c).bind fun digit => code? count (16 * value + digit) rest
      | [] => none

/-- The code point of a code.  Halves of pairs are not joined. -/
def ofCode (code : Nat) : Except Fault CodePoint :=
  if 0x10ffff < code then .error (.codePoint code) else .ok (.ofNat code)

/-- The breaks of empty lines, up to the first character of a line that is not empty. -/
def emptyLines : Nat → List Char → Except Fault (List Char × List Char)
  | 0, text => .ok ([], text)
  | fuel + 1, text =>
      if atSeparator text then fail .quotation
      else
        let text := text.dropWhile isBlank
        match lineBreak? text with
        | none => .ok ([], text)
        | some (first, rest) =>
            match emptyLines fuel rest with
            | .error fault => .error fault
            | .ok (more, rest) => .ok (first :: more, rest)

/-- Puts characters behind those that are read, of which the last one stands first. -/
def behind (read : List CodePoint) (chars : List Char) : List CodePoint :=
  (chars.map CodePoint.ofChar).reverse ++ read

/-- Reads what is left of a quoted text.  `read` holds the code points so far, the last one first. -/
def quotedRest (isDouble : Bool) : Nat → List CodePoint → List Char → Except Fault (List CodePoint × List Char)
  | 0, _, _ => fail .quotation
  | fuel + 1, read, text =>
      match text with
      | [] => fail .quotation
      | c :: rest =>
          if c == '\'' && !isDouble then
            match rest with
            | '\'' :: rest => quotedRest isDouble fuel (behind read ['\'']) rest
            | rest => .ok (read, rest)
          else if c == '"' && isDouble then .ok (read, rest)
          else if c == '\\' && isDouble then
            match rest with
            | [] => fail .escape
            | letter :: after =>
                match escapes.lookup letter, codeLengths.lookup letter, lineBreak? rest with
                | some c, _, _ => quotedRest isDouble fuel (behind read [c]) after
                | none, some count, _ =>
                    match code? count 0 after with
                    | none => fail .escape
                    | some (code, after) =>
                        match ofCode code with
                        | .error fault => .error fault
                        | .ok point => quotedRest isDouble fuel (point :: read) after
                | none, none, some (_, after) =>
                    match emptyLines after.length after with
                    | .error fault => .error fault
                    | .ok (breaks, after) => quotedRest isDouble fuel (behind read breaks) after
                | none, none, none => fail .escape
          else if isSpace c then
            let (blanks, after) := text.span isBlank
            match lineBreak? after with
            | some (first, after) =>
                match emptyLines after.length after with
                | .error fault => .error fault
                | .ok (more, after) => quotedRest isDouble fuel (behind read (joinLines first more)) after
            | none =>
                if after.isEmpty then fail .quotation
                else quotedRest isDouble fuel (behind read blanks) after
          else quotedRest isDouble fuel (behind read [c]) rest

def quoted (isDouble : Bool) (text : List Char) : Except Fault (WideText × List Char) :=
  (quotedRest isDouble (text.length + 1) [] text).map fun (read, rest) => (⟨read.reverse⟩, rest)

/-! ## Without quotation marks -/

/-- The signs that end a plain scalar inside brackets. -/
def flowSigns : List Char := [',', '?', '[', ']', '\x7b', '\x7d']

def endsPlain (inFlow : Bool) (c : Char) (rest : List Char) : Bool :=
  isSpace c || (inFlow && flowSigns.contains c) ||
    (c == ':' && (atSpace rest || (inFlow && match rest with
      | next :: _ => next != '?' && flowSigns.contains next
      | [] => false)))

def plainWord (inFlow : Bool) : List Char → List Char × List Char
  | [] => ([], [])
  | c :: rest =>
      if endsPlain inFlow c rest then ([], c :: rest)
      else
        let (word, rest) := plainWord inFlow rest
        (c :: word, rest)

/-- What stands between two words of a plain scalar. -/
structure Gap where
  /-- What it reads as; missing if a separator of documents follows. -/
  text : Option (List Char)
  rest : List Char
  /-- Does the gap hold a line break, and how many spaces stand behind the last one? -/
  column? : Option Nat

/-- The line breaks of a gap behind the first one, and the spaces behind the last. -/
def gapLines : Nat → Nat → List Char → Option (List Char) × List Char × Nat
  | 0, column, text => (some [], text, column)
  | fuel + 1, column, text =>
      match text with
      | ' ' :: rest => gapLines fuel (column + 1) rest
      | _ =>
          match lineBreak? text with
          | none => (some [], text, column)
          | some (first, rest) =>
              if atSeparator rest then (none, rest, 0)
              else
                let (more, rest, column) := gapLines fuel 0 rest
                (more.map (first :: ·), rest, column)

def gap (text : List Char) : Gap :=
  let (spaces, after) := text.span (· == ' ')
  match lineBreak? after with
  | none => ⟨some spaces, after, none⟩
  | some (first, rest) =>
      if atSeparator rest then ⟨none, rest, some 0⟩
      else
        let (more, rest, column) := gapLines rest.length 0 rest
        ⟨more.map (joinLines first), rest, some column⟩

def startsComment : List Char → Bool
  | '#' :: _ => true
  | _ => false

/-- Reads the words of a plain scalar, of which all but the first line are indented by `indent` columns.
The result says whether a line break stands behind the last word. -/
def plainWords (inFlow : Bool) (indent : Nat) : Nat → List Char → Gap → List Char × List Char × Bool
  | 0, read, before => (read, before.rest, before.column?.isSome)
  | fuel + 1, read, before =>
      match plainWord inFlow before.rest with
      | ([], rest) => (read, rest, before.column?.isSome)
      | (word, rest) =>
          let read := read ++ before.text.getD [] ++ word
          let next := gap rest
          let isShallow := !inFlow && match next.column? with
            | some column => column < indent
            | none => false
          if (next.text.getD []).isEmpty || startsComment next.rest || isShallow then
            (read, next.rest, next.column?.isSome)
          else plainWords inFlow indent fuel read next

def plain (inFlow : Bool) (indent : Nat) (text : List Char) : WideText × List Char × Bool :=
  let (read, rest, broken) := plainWords inFlow indent (text.length + 1) [] ⟨some [], text, none⟩
  (.ofChars read, rest, broken)

/-! ## Blocks of lines -/

/-- What happens to the line breaks at the end of a block. -/
inductive Chomping where
  | clip
  | strip
  | keep
deriving DecidableEq, Repr

def chomping? : List Char → Option (Chomping × List Char)
  | '+' :: rest => some (.keep, rest)
  | '-' :: rest => some (.strip, rest)
  | _ => none

/-- An indentation of one to nine columns, if a digit stands here. -/
def increment? (text : List Char) : Except Fault (Option Nat × List Char) :=
  match text with
  | c :: rest =>
      if !isDigit c then .ok (none, text)
      else if c == '0' then fail .blockHeader
      else .ok (some (c.toNat - '0'.toNat), rest)
  | [] => .ok (none, text)

def blockMarks (text : List Char) : Except Fault (Chomping × Option Nat × List Char) := do
  match chomping? text with
  | some (chomping, rest) =>
      let (increment, rest) ← increment? rest
      return (chomping, increment, rest)
  | none =>
      let (increment, rest) ← increment? text
      match increment, chomping? rest with
      | some _, some (chomping, rest) => return (chomping, increment, rest)
      | _, _ => return (.clip, increment, rest)

/-- The rest of a line, which may hold spaces and a comment, and its break. -/
def restOfLine (what : Malformation) (text : List Char) : Except Fault (List Char) :=
  let text := text.dropWhile (· == ' ')
  let text := if startsComment text then text.dropWhile (!isBreak ·) else text
  match lineBreak? text with
  | some (_, rest) => .ok rest
  | none => if text.isEmpty then .ok [] else fail what

/-- The lines of spaces before a block: their breaks, the most spaces in one, and the spaces in the last. -/
def leadingLines : Nat → Nat → Nat → List Char → List Char × Nat × Nat × List Char
  | 0, most, column, text => ([], most, column, text)
  | fuel + 1, most, column, text =>
      match text with
      | ' ' :: rest => leadingLines fuel (max most (column + 1)) (column + 1) rest
      | _ =>
          match lineBreak? text with
          | none => ([], most, column, text)
          | some (first, rest) =>
              let (breaks, most, column, rest) := leadingLines fuel most 0 rest
              (first :: breaks, most, column, rest)

def skipSpaces : Nat → List Char → Nat × List Char
  | count + 1, ' ' :: rest =>
      let (skipped, rest) := skipSpaces count rest
      (skipped + 1, rest)
  | _, text => (0, text)

/-- The breaks of lines that hold nothing but the indentation of a block, and the indentation behind them. -/
def blockBreaks (indent : Nat) : Nat → List Char → List Char × Nat × List Char
  | 0, text => ([], 0, text)
  | fuel + 1, text =>
      let (column, text) := skipSpaces indent text
      match lineBreak? text with
      | none => ([], column, text)
      | some (first, rest) =>
          let (breaks, column, rest) := blockBreaks indent fuel rest
          (first :: breaks, column, rest)

def startsBlank : List Char → Bool
  | c :: _ => isBlank c
  | [] => false

/-- Reads the lines of a block.  `breaks` stand before the next line, which is `column` columns in. -/
def blockLines (isFolded : Bool) (chomping : Chomping) (indent : Nat) :
    Nat → List Char → List Char → Option Char → Nat → List Char → List Char × List Char
  | 0, read, _, _, _, text => (read, text)
  | fuel + 1, read, breaks, last, column, text =>
      if column = indent ∧ !text.isEmpty then
        let (line, rest) := text.span (!isBreak ·)
        let ending := lineBreak? rest
        let rest := (ending.map Prod.snd).getD []
        let ending := ending.map Prod.fst
        let (more, column, rest) := blockBreaks indent (rest.length + 1) rest
        let goesOn : Bool := column = indent ∧ !rest.isEmpty
        let isFold := isFolded && ending == some '\n' && !startsBlank text && !startsBlank rest
        let joint := if !goesOn then [] else if !isFold then ending.toList else if more.isEmpty then [' '] else []
        blockLines isFolded chomping indent fuel (read ++ breaks ++ line ++ joint) more ending column rest
      else
        let tail := match chomping with
          | .clip => last.toList
          | .strip => []
          | .keep => last.toList ++ breaks
        (read ++ tail, text)

/-- Reads a block behind its sign.  `least` is the smallest indentation that it may have. -/
def block (isFolded : Bool) (least : Nat) (text : List Char) : Except Fault (WideText × List Char) := do
  let (chomping, increment, text) ← blockMarks text
  if !(atBreak text || text.head? == some ' ') then fail .blockHeader
  else
    let text ← restOfLine .blockHeader text
    let (breaks, indent, column, text) := match increment with
      | none =>
          let (breaks, most, column, text) := leadingLines (text.length + 1) 0 0 text
          (breaks, max least most, column, text)
      | some increment =>
          let indent := least + increment - 1
          let (breaks, column, text) := blockBreaks indent (text.length + 1) text
          (breaks, indent, column, text)
    let (read, rest) := blockLines isFolded chomping indent (text.length + 1) [] breaks none column text
    return (.ofChars read, rest)

end Extension.Yaml.Scan
