import Extension.Yaml.Token.Mark

namespace Extension.Yaml

/-! Splitting a text into tokens.

Columns decide where blocks start and end.  A key in one line is recognised only at the colon behind it, so
the scanner remembers where such a key may have started, once for every level of brackets.
-/

structure Place where
  rest : List Char
  index : Nat := 0
  line : Nat := 0
  column : Nat := 0

namespace Place

/-- The place behind the next characters.  A byte order mark takes no column. -/
def advance (place : Place) : Nat → Place
  | 0 => place
  | count + 1 =>
      match place.rest with
      | [] => place
      | c :: rest =>
          let endsLine := isBreak c && !(c == '\r' && rest.head? == some '\n')
          let next : Place :=
            { rest
              index := place.index + 1
              line := if endsLine then place.line + 1 else place.line
              column := if endsLine then 0 else if c == '\ufeff' then place.column else place.column + 1 }
          advance next count

def moveTo (place : Place) (rest : List Char) : Place :=
  place.advance (place.rest.length - rest.length)

end Place

structure KeyStart where
  /-- The number of tokens before it. -/
  position : Nat
  /-- Can the block go on only with a key? -/
  isRequired : Bool
  index : Nat
  line : Nat
  column : Nat

/-- The furthest that the colon may be from the start of a key in one line. -/
def maxKeyLength : Nat := 1024

structure Scanner where
  place : Place
  /-- The indentations of the open blocks, the innermost first. -/
  indents : List Nat := []
  allowsKey : Bool := true
  /-- Where a key may have started, for each level of brackets, the innermost first. -/
  starts : List (Option KeyStart) := [none]
  /-- The tokens, the last one first. -/
  tokens : List Token := []

namespace Scanner

def inFlow (scanner : Scanner) : Bool :=
  1 < scanner.starts.length

def emit (scanner : Scanner) (token : Token) : Scanner :=
  { scanner with tokens := token :: scanner.tokens }

def moveTo (scanner : Scanner) (rest : List Char) : Scanner :=
  { scanner with place := scanner.place.moveTo rest }

/-- Puts a token before those that follow the first `position` ones. -/
def insert (scanner : Scanner) (position : Nat) (token : Token) : Scanner :=
  { scanner with tokens := scanner.tokens.insertIdx (scanner.tokens.length - position) token }

def setStart (scanner : Scanner) (start : Option KeyStart) : Scanner :=
  { scanner with starts := start :: scanner.starts.drop 1 }

def start? (scanner : Scanner) : Option KeyStart :=
  scanner.starts.head?.join

/-- Is the start of a key too far away to have its colon here? -/
def isStale (place : Place) (start : KeyStart) : Bool :=
  start.line != place.line || maxKeyLength < place.index - start.index

def dropStale (scanner : Scanner) : Except Fault Scanner :=
  if scanner.starts.any fun start? => start?.any (isStale scanner.place) && start?.any KeyStart.isRequired then
    fail .misplaced
  else
    .ok { scanner with
      starts := scanner.starts.map fun start? => if start?.any (isStale scanner.place) then none else start? }

def dropStart (scanner : Scanner) : Except Fault Scanner :=
  if scanner.start?.any KeyStart.isRequired then fail .misplaced else .ok (scanner.setStart none)

def saveStart (scanner : Scanner) : Except Fault Scanner :=
  if scanner.allowsKey then do
    let scanner ← scanner.dropStart
    let place := scanner.place
    return scanner.setStart (some {
      position := scanner.tokens.length
      isRequired := !scanner.inFlow && scanner.indents.head? == some place.column
      index := place.index
      line := place.line
      column := place.column })
  else .ok scanner

/-- Ends the blocks that are indented more than so many columns, or all blocks. -/
def closeBlocks (scanner : Scanner) (column : Option Nat) : Scanner :=
  if scanner.inFlow then scanner
  else
    let isOpen := fun indent => match column with
      | some column => column < indent
      | none => true
    let closed := (scanner.indents.takeWhile isOpen).length
    { scanner with
      indents := scanner.indents.drop closed
      tokens := List.replicate closed .blockEnd ++ scanner.tokens }

def isDeeper (scanner : Scanner) (column : Nat) : Bool :=
  match scanner.indents with
  | [] => true
  | indent :: _ => indent < column

/-- Starts a block at a column, unless it is open already. -/
def openBlock (scanner : Scanner) (column : Nat) (token : Token) : Scanner :=
  if scanner.isDeeper column then { scanner with indents := column :: scanner.indents }.emit token else scanner

def skipToToken : Nat → Scanner → Scanner
  | 0, scanner => scanner
  | fuel + 1, scanner =>
      let text := scanner.place.rest
      let text := if scanner.place.index = 0 && text.head? == some '\ufeff' then text.drop 1 else text
      let text := text.dropWhile (· == ' ')
      let text := if Scan.startsComment text then text.dropWhile (!isBreak ·) else text
      match Scan.lineBreak? text with
      | none => scanner.moveTo text
      | some (_, rest) =>
          skipToToken fuel { scanner.moveTo rest with allowsKey := scanner.allowsKey || !scanner.inFlow }

def take (scanner : Scanner) (count : Nat) (token : Token) : Scanner :=
  { scanner with place := scanner.place.advance count }.emit token

def leaveBlocks (scanner : Scanner) : Except Fault Scanner := do
  let scanner ← (scanner.closeBlocks none).dropStart
  return { scanner with allowsKey := false }

def openFlow (scanner : Scanner) (token : Token) : Except Fault Scanner := do
  let scanner ← scanner.saveStart
  return { scanner with starts := none :: scanner.starts, allowsKey := true }.take 1 token

def closeFlow (scanner : Scanner) (token : Token) : Except Fault Scanner := do
  if !scanner.inFlow then fail .misplaced
  else
    let scanner ← scanner.dropStart
    return { scanner with starts := scanner.starts.drop 1, allowsKey := false }.take 1 token

def comma (scanner : Scanner) : Except Fault Scanner := do
  return { (← scanner.dropStart) with allowsKey := true }.take 1 .comma

def item (scanner : Scanner) : Except Fault Scanner := do
  if !scanner.inFlow && !scanner.allowsKey then fail .misplaced
  else
    let scanner := if scanner.inFlow then scanner else scanner.openBlock scanner.place.column .itemsStart
    return { (← scanner.dropStart) with allowsKey := true }.take 1 .item

def key (scanner : Scanner) : Except Fault Scanner := do
  if !scanner.inFlow && !scanner.allowsKey then fail .misplaced
  else
    let scanner := if scanner.inFlow then scanner else scanner.openBlock scanner.place.column .entriesStart
    return { (← scanner.dropStart) with allowsKey := !scanner.inFlow }.take 1 .key

/-- A colon before a value.  If a key may have started before it, one has. -/
def value (scanner : Scanner) : Except Fault Scanner := do
  match scanner.start? with
  | some start =>
      let scanner := (scanner.setStart none).insert start.position .key
      let scanner :=
        if !scanner.inFlow && scanner.isDeeper start.column then
          { scanner with indents := start.column :: scanner.indents }.insert start.position .entriesStart
        else scanner
      return { scanner with allowsKey := false }.take 1 .value
  | none =>
      if !scanner.inFlow && !scanner.allowsKey then fail .misplaced
      else
        let scanner := if scanner.inFlow then scanner else scanner.openBlock scanner.place.column .entriesStart
        return { scanner with allowsKey := !scanner.inFlow }.take 1 .value

/-- Emits a token that may be a key, or start one. -/
def inKey (scanner : Scanner) (token : Token) (rest : List Char) : Except Fault Scanner := do
  let scanner ← scanner.saveStart
  return ({ scanner with allowsKey := false }.emit token).moveTo rest

def quoted (scanner : Scanner) (isDouble : Bool) (text : List Char) : Except Fault Scanner := do
  let scanner ← scanner.saveStart
  let (content, rest) ← Scan.quoted isDouble text
  return ({ scanner with allowsKey := false }.emit (.scalar content false)).moveTo rest

def plain (scanner : Scanner) (text : List Char) : Except Fault Scanner := do
  let scanner ← scanner.saveStart
  let indent := match scanner.indents with
    | [] => 0
    | indent :: _ => indent + 1
  let (content, rest, broken) := Scan.plain scanner.inFlow indent text
  return ({ scanner with allowsKey := broken }.emit (.scalar content true)).moveTo rest

def block (scanner : Scanner) (isFolded : Bool) (text : List Char) : Except Fault Scanner := do
  let scanner ← scanner.dropStart
  let least := match scanner.indents with
    | [] => 1
    | indent :: _ => indent + 1
  let (content, rest) ← Scan.block isFolded least text
  return ({ scanner with allowsKey := true }.emit (.scalar content false)).moveTo rest

def startsPlain (inFlow : Bool) (c : Char) (rest : List Char) : Bool :=
  let isSign := isSpace c || ['-', '?', ':', ',', '[', ']', '\x7b', '\x7d', '#', '&', '*', '!', '|', '>', '\'', '"',
    '%', '@', '\x60'].contains c
  !isSign || (!atSpace rest && (c == '-' || (!inFlow && (c == '?' || c == ':'))))

/-- Is this the sign of a line that separates documents? -/
def atMark (place : Place) (mark : Char) : Bool :=
  place.column == 0 && [mark, mark, mark].isPrefixOf place.rest && atSpace (place.rest.drop 3)

/-- Reads the next token.  The result says whether it is the last one. -/
def step (scanner : Scanner) : Except Fault (Scanner × Bool) := do
  let scanner ← (skipToToken (scanner.place.rest.length + 1) scanner).dropStale
  let scanner := scanner.closeBlocks (some scanner.place.column)
  let inFlow := scanner.inFlow
  let goOn := fun (scanner : Except Fault Scanner) => scanner.map fun scanner => (scanner, false)
  match scanner.place.rest with
  | [] =>
      let scanner ← (scanner.closeBlocks none).dropStart
      return (scanner.emit .streamEnd, true)
  | c :: rest =>
      if c == '%' && scanner.place.column == 0 then
        let scanner ← scanner.leaveBlocks
        let (content, rest) ← Scan.directive rest
        return ((scanner.emit (.directive content)).moveTo rest, false)
      else if atMark scanner.place '-' then goOn (scanner.leaveBlocks.map (·.take 3 .documentStart))
      else if atMark scanner.place '.' then goOn (scanner.leaveBlocks.map (·.take 3 .documentEnd))
      else if c == '[' then goOn (scanner.openFlow .listStart)
      else if c == '\x7b' then goOn (scanner.openFlow .dictStart)
      else if c == ']' then goOn (scanner.closeFlow .listEnd)
      else if c == '\x7d' then goOn (scanner.closeFlow .dictEnd)
      else if c == ',' then goOn scanner.comma
      else if c == '-' && atSpace rest then goOn scanner.item
      else if c == '?' && (inFlow || atSpace rest) then goOn scanner.key
      else if c == ':' && (inFlow || atSpace rest) then goOn scanner.value
      else if c == '*' then
        let (name, rest) ← Scan.name rest
        goOn (scanner.inKey (.alias name) rest)
      else if c == '&' then
        let (name, rest) ← Scan.name rest
        goOn (scanner.inKey (.anchor name) rest)
      else if c == '!' then
        let (token, rest) ← Scan.tag (c :: rest)
        goOn (scanner.inKey token rest)
      else if c == '|' && !inFlow then goOn (scanner.block false rest)
      else if c == '>' && !inFlow then goOn (scanner.block true rest)
      else if c == '\'' then goOn (scanner.quoted false rest)
      else if c == '"' then goOn (scanner.quoted true rest)
      else if startsPlain inFlow c rest then goOn (scanner.plain (c :: rest))
      else fail .unknownStart

/-- How many levels of brackets are followed.  A text that is nested deeper is given up long before. -/
def maxBrackets : Nat := 2000

/-- The tokens that can be taken when there will be no more.  Before a token that may be a key is taken, it
has to be known whether it is one, which takes the tokens up to the colon. -/
def stop (scanner : Scanner) (fault : Fault) : List Token × Fault :=
  let scanner := (scanner.dropStale.toOption).getD scanner
  let known := scanner.starts.foldl (fun known start? => min known ((start?.map KeyStart.position).getD known))
    scanner.tokens.length
  (scanner.tokens.reverse.take known, fault)

/-- Reads tokens up to the last one, or up to a fault. -/
def run : Nat → Scanner → List Token × Fault
  | 0, scanner => scanner.stop (.malformed .incoherent)
  | fuel + 1, scanner =>
      if maxBrackets < scanner.starts.length then scanner.stop .tooDeep
      else match scanner.step with
        | .error fault => scanner.stop fault
        | .ok (scanner, true) => (scanner.tokens.reverse, .malformed .incoherent)
        | .ok (scanner, false) => run fuel scanner

end Scanner

/-- The tokens of a text, and why there are no more if their end is missing. -/
def tokens (text : List Char) : List Token × Fault :=
  if text.all isAllowed then Scanner.run (text.length + 1) { place := { rest := text } }
  else ([], .malformed .character)

end Extension.Yaml
