import Extension.Entries
import Extension.Yaml.Node.Basic
import Extension.Yaml.Token.Scanner

namespace Extension.Yaml

/-! Building nodes from tokens. -/

structure Building where
  tokens : List Token
  /-- Why there are no more tokens. -/
  lack : Fault
  /-- What the handles of tags stand for. -/
  handles : Entries String := []
  nodes : Nodes := #[]
  anchors : Entries NodeId := []

abbrev Build (α : Type) := StateT Building (Except Fault) α

namespace Build

def peek : Build Token := do
  let building ← get
  match building.tokens with
  | token :: _ => return token
  | [] => throw building.lack

def skip : Build Unit :=
  modify fun building => { building with tokens := building.tokens.drop 1 }

def reject (what : Malformation) : Build α :=
  throw (.malformed what)

def isNext (tokens : List Token) : Build Bool :=
  return tokens.contains (← peek)

def expect (token : Token) : Build Unit := do
  if ← isNext [token] then skip else reject .incoherent

def addNode (tag : Tag) (content : Node.Content) : Build NodeId := do
  let building ← get
  set { building with nodes := building.nodes.push { tag, content } }
  return building.nodes.size

def fill (id : NodeId) (content : Node.Content) : Build Unit :=
  modify fun building => { building with nodes := building.nodes.setContent id content }

def absent : Build NodeId :=
  addNode .null (.scalar "")

/-- The handles that every document has. -/
def commonHandles : Entries String := [("!", "!"), ("!!", Tag.family)]

/-- A tag as it is written: its handle and what follows. -/
abbrev Mark := Option String × String

def tagName (mark : Mark) : Build String := do
  match mark with
  | (none, suffix) => return suffix
  | (some handle, suffix) =>
      match (← get).handles.lookup handle with
      | some start => return start ++ suffix
      | none => reject .tag

def takeAnchor? : Build (Option String) := do
  match ← peek with
  | .anchor name =>
      skip
      return some name
  | _ => return none

def takeMark? : Build (Option Mark) := do
  match ← peek with
  | .tag handle suffix =>
      skip
      return some (handle, suffix)
  | _ => return none

/-- The anchor and the tag before a node, in either order. -/
def properties : Build (Option String × Option String) := do
  let (anchor, mark) ←
    match ← takeAnchor? with
    | some anchor => pure (some anchor, ← takeMark?)
    | none =>
        match ← takeMark? with
        | none => pure (none, none)
        | some mark => pure (← takeAnchor?, some mark)
  match mark with
  | none => return (anchor, none)
  | some mark => return (anchor, some (← tagName mark))

/-- The kind of a scalar.  The tag of a single exclamation mark leaves it to the text. -/
def scalarTag (tag : Option String) (text : WideText) (isPlain : Bool) : Tag :=
  match tag with
  | none => if isPlain then .ofPlain text else .str
  | some "!" => .ofPlain text
  | some name => .ofName name

def collectionTag (tag : Option String) (default : Tag) : Tag :=
  match tag with
  | none | some "!" => default
  | some name => .ofName name

def addNamed (anchor : Option String) (tag : Tag) (content : Node.Content) : Build NodeId := do
  match anchor with
  | none => addNode tag content
  | some name =>
      if ((← get).anchors.lookup name).isSome then reject .alias
      else
        let id ← addNode tag content
        modify fun building => { building with anchors := building.anchors.put name id }
        return id

def aliased (name : String) : Build NodeId := do
  match (← get).anchors.lookup name with
  | none => reject .alias
  | some id => return id

/-- Where a node stands, which decides the blocks that it may start. -/
inductive Position where
  | inFlow
  | inBlock
  /-- Behind a key, where a list needs no deeper indentation. -/
  | underKey
deriving DecidableEq, Repr

def maxNesting : Nat := 490

mutual

/-- Builds a node inside so many others.  Every call but the first follows a token, which bounds their
number. -/
def node : Nat → Nat → Position → Build NodeId
  | 0, _, _ => reject .incoherent
  | fuel + 1, nesting, position => do
      if maxNesting < nesting then throw .tooDeep
      match ← peek with
      | .alias name =>
          skip
          aliased name
      | _ =>
          let (anchor, tag) ← properties
          content fuel nesting position anchor tag

/-- Builds a node behind its properties.  A list or mapping has its name before it has its parts, which may
use it. -/
def content : Nat → Nat → Position → Option String → Option String → Build NodeId
  | 0, _, _, _, _ => reject .incoherent
  | fuel + 1, nesting, position, anchor, tag => do
      let list : Build NodeId := addNamed anchor (collectionTag tag .seq) (.list [])
      let dict : Build NodeId := addNamed anchor (collectionTag tag .map) (.dict [])
      let token ← peek
      match token, position with
      | .item, .underKey =>
          let id ← list
          fill id (.list (← bareItems fuel nesting []))
          return id
      | .scalar text isPlain, _ =>
          skip
          addNamed anchor (scalarTag tag text isPlain) (.scalar text)
      | .listStart, _ =>
          let id ← list
          skip
          fill id (.list (← flowItems fuel nesting []))
          return id
      | .dictStart, _ =>
          let id ← dict
          skip
          fill id (.dict (← flowEntries fuel nesting []))
          return id
      | .itemsStart, .inBlock | .itemsStart, .underKey =>
          let id ← list
          skip
          fill id (.list (← items fuel nesting []))
          return id
      | .entriesStart, .inBlock | .entriesStart, .underKey =>
          let id ← dict
          skip
          fill id (.dict (← entries fuel nesting []))
          return id
      | _, _ =>
          if anchor.isSome || tag.isSome then addNamed anchor (scalarTag tag "" true) (.scalar "")
          else reject .incoherent

def items : Nat → Nat → List NodeId → Build (List NodeId)
  | 0, _, _ => reject .incoherent
  | fuel + 1, nesting, read => do
      if ← isNext [.item] then
        skip
        let item ← if ← isNext [.item, .blockEnd] then absent else node fuel (nesting + 1) .inBlock
        items fuel nesting (item :: read)
      else
        expect .blockEnd
        return read.reverse

/-- The items of a list that has the indentation of its key. -/
def bareItems : Nat → Nat → List NodeId → Build (List NodeId)
  | 0, _, _ => reject .incoherent
  | fuel + 1, nesting, read => do
      if ← isNext [.item] then
        skip
        let item ← if ← isNext [.item, .key, .value, .blockEnd] then absent else node fuel (nesting + 1) .inBlock
        bareItems fuel nesting (item :: read)
      else return read.reverse

def entries : Nat → Nat → List (NodeId × NodeId) → Build (List (NodeId × NodeId))
  | 0, _, _ => reject .incoherent
  | fuel + 1, nesting, read => do
      if ← isNext [.key] then
        skip
        let key ← if ← isNext [.key, .value, .blockEnd] then absent else node fuel (nesting + 1) .underKey
        let value ← entryValue fuel nesting
        entries fuel nesting ((key, value) :: read)
      else
        expect .blockEnd
        return read.reverse

def entryValue : Nat → Nat → Build NodeId
  | 0, _ => reject .incoherent
  | fuel + 1, nesting => do
      if ← isNext [.value] then
        skip
        if ← isNext [.key, .value, .blockEnd] then absent else node fuel (nesting + 1) .underKey
      else absent

def flowItems : Nat → Nat → List NodeId → Build (List NodeId)
  | 0, _, _ => reject .incoherent
  | fuel + 1, nesting, read => do
      if ← isNext [.listEnd] then
        skip
        return read.reverse
      else
        if !read.isEmpty then expect .comma
        if ← isNext [.listEnd] then
          skip
          return read.reverse
        else if ← isNext [.key] then
          let pair ← addNode .map (.dict [])
          skip
          let key ← if ← isNext [.value, .comma, .listEnd] then absent else node fuel (nesting + 2) .inFlow
          let value ← flowValue fuel (nesting + 1) .listEnd
          fill pair (.dict [(key, value)])
          flowItems fuel nesting (pair :: read)
        else
          let item ← node fuel (nesting + 1) .inFlow
          flowItems fuel nesting (item :: read)

def flowEntries : Nat → Nat → List (NodeId × NodeId) → Build (List (NodeId × NodeId))
  | 0, _, _ => reject .incoherent
  | fuel + 1, nesting, read => do
      if ← isNext [.dictEnd] then
        skip
        return read.reverse
      else
        if !read.isEmpty then expect .comma
        if ← isNext [.dictEnd] then
          skip
          return read.reverse
        else if ← isNext [.key] then
          skip
          let key ← if ← isNext [.value, .comma, .dictEnd] then absent else node fuel (nesting + 1) .inFlow
          let value ← flowValue fuel nesting .dictEnd
          flowEntries fuel nesting ((key, value) :: read)
        else
          let key ← node fuel (nesting + 1) .inFlow
          flowEntries fuel nesting ((key, ← absent) :: read)

/-- The value behind a key between brackets or braces. -/
def flowValue : Nat → Nat → Token → Build NodeId
  | 0, _, _ => reject .incoherent
  | fuel + 1, nesting, close => do
      if ← isNext [.value] then
        skip
        if ← isNext [.comma, close] then absent else node fuel (nesting + 1) .inFlow
      else absent

end

def directives : Nat → Bool → Entries String → Build Unit
  | 0, _, _ => reject .directive
  | fuel + 1, hasVersion, handles => do
      match ← peek with
      | .directive content =>
          skip
          match content with
          | .version major _ =>
              if hasVersion || major != 1 then reject .directive else directives fuel true handles
          | .handle name start =>
              if (handles.lookup name).isSome then reject .directive
              else directives fuel hasVersion (handles ++ [(name, start)])
          | .unknown => directives fuel hasVersion handles
      | _ =>
          let common := commonHandles.filter fun entry => (handles.lookup entry.1).isNone
          modify fun building => { building with handles := handles ++ common }

def start (fuel : Nat) : Build Unit := do
  directives fuel false []
  expect .documentStart

def skipEnds : Nat → Build Unit
  | 0 => return
  | fuel + 1 => do
      if ← isNext [.documentEnd] then
        skip
        skipEnds fuel

def finish (fuel : Nat) : Build Unit := do
  skipEnds fuel
  if ← isNext [.streamEnd] then return
  else
    start fuel
    reject .secondDocument

/-- Builds the only document of a text, if there is one. -/
def document (fuel : Nat) : Build (Option NodeId) := do
  match ← peek with
  | .streamEnd => return none
  | .directive _ | .documentStart =>
      start fuel
      let isLeftOut : Bool := match ← peek with
        | .directive _ | .documentStart | .documentEnd | .streamEnd => true
        | _ => false
      let root ← if isLeftOut then absent else node fuel 0 .inBlock
      finish fuel
      return some root
  | _ =>
      modify fun building => { building with handles := commonHandles }
      let root ← node fuel 0 .inBlock
      finish fuel
      return some root

end Build

/-- The root and the nodes of a text, if the text holds a document. -/
def nodesOfText? (text : String) : Except Fault (Option (NodeId × Nodes)) := do
  let (tokens, lack) := tokens text.toList
  let (root, building) ← (Build.document (4 * tokens.length + 4)).run { tokens, lack }
  return root.map fun root => (root, building.nodes)

end Extension.Yaml
