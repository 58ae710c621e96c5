import Extension.Yaml.Content
import Extension.Yaml.Node.Merge
import Extension.Yaml.Node.Structure

namespace Extension.Yaml

/-! Reading a YAML text as a document.

Every node is made once.  A scalar is made where it is first met; a list or mapping is only announced there
and gets its parts later, in the order of the announcements, so that the parts may name it.  The first fault
counts.
-/

inductive Cell where
  | leaf (document : Document)
  | list (items : List NodeId)
  | pairs (items : List (NodeId × NodeId))
  | set (keys : List Document)
  | dict (entries : List (Document × NodeId))

namespace Cell

/-- Gives a key a value, in its place if there is an equal key. -/
def putEntry (entries : List (Document × NodeId)) (key : Document) (value : NodeId) : List (Document × NodeId) :=
  match entries with
  | [] => [(key, value)]
  | (held, old) :: rest => if held.same key then (held, value) :: rest else (held, old) :: putEntry rest key value

def parts : Cell → List NodeId
  | .leaf _ | .set _ => []
  | .list items => items
  | .pairs items => items.flatMap fun (key, value) => [key, value]
  | .dict entries => entries.map Prod.snd

def document (part : NodeId → Document) : Cell → Document
  | .leaf document => document
  | .list items => .list (items.map part)
  | .pairs items => .list (items.map fun (key, value) => .tuple [part key, part value])
  | .set keys => .set keys
  | .dict entries => .dict (entries.map fun (key, value) => (key, part value))

end Cell

structure Making where
  nodes : Nodes
  /-- What is made of each node so far. -/
  cells : Array (Option Cell)
  /-- The lists and mappings that wait for their parts, the last one first. -/
  waiting : List NodeId := []

abbrev Make (α : Type) := StateT Making (Except Fault) α

namespace Make

def setCell (id : NodeId) (cell : Cell) : Make Unit :=
  modify fun making => { making with cells := making.cells.setIfInBounds id (some cell) }

/-- The text of a scalar; a mapping has the text of its `=` entry.  A text is found within as many steps as
there are nodes, unless it is part of itself. -/
def textOf (nodes : Nodes) : Nat → NodeId → Except Fault WideText
  | 0, _ => .error .endless
  | fuel + 1, id =>
      match (nodes.node id).content with
      | .scalar text => .ok text
      | .dict entries =>
          match entries.find? fun entry => nodes.isKind entry.1 .value with
          | some (_, value) => textOf nodes fuel value
          | none => fail .kind
      | .list _ => fail .kind

def leaf (nodes : Nodes) (id : NodeId) : Except Fault Document := do
  let text ← textOf nodes (nodes.size + 1) id
  match (nodes.node id).tag, (nodes.node id).content with
  | .timestamp, .dict _ => throw .mappingAsTime
  | tag, _ => ofScalar (id + 1) tag text

/-- Makes a node, or announces it. -/
def announce (id : NodeId) : Make Unit := do
  let making ← get
  if (making.cells.getD id none).isNone then
    match (making.nodes.node id).tag with
    | .seq | .map | .set | .omap | .pairs =>
        modify fun making => { making with waiting := id :: making.waiting }
        setCell id (.list [])
    | _ => setCell id (.leaf (← leaf making.nodes id))

/-- Makes a key, which no list and no mapping can be. -/
def key (id : NodeId) : Make Document := do
  announce id
  match (← get).cells.getD id none with
  | some (.leaf document) => return document
  | _ => throw (.malformed .unhashable)

def entries (id : NodeId) : Make (List (Document × NodeId)) := do
  let nodes ← (← get).nodes.flatten id
  modify fun making => { making with nodes }
  match (nodes.node id).content with
  | .dict entries =>
      entries.foldlM (fun made (keyId, value) => do
        let key ← key keyId
        announce value
        return Cell.putEntry made key value) []
  | .scalar _ | .list _ => throw (.malformed .kind)

def items (id : NodeId) : Make (List NodeId) := do
  match ((← get).nodes.node id).content with
  | .list items => return items
  | .scalar _ | .dict _ => throw (.malformed .kind)

def pair (id : NodeId) : Make (NodeId × NodeId) := do
  match ((← get).nodes.node id).content with
  | .dict [(key, value)] =>
      announce key
      announce value
      return (key, value)
  | _ => throw (.malformed .kind)

/-- Gives a list or mapping that was announced its parts. -/
def complete (id : NodeId) : Make Unit := do
  match ((← get).nodes.node id).tag with
  | .map => setCell id (.dict (← entries id))
  | .set => setCell id (.set ((← entries id).map Prod.fst))
  | .omap | .pairs => setCell id (.pairs (← (← items id).mapM pair))
  | _ =>
      let items ← items id
      items.forM announce
      setCell id (.list items)

/-- Completes what waits, and what is announced on the way.  Every node waits at most once. -/
def completeAll : Nat → Make Unit
  | 0 => return
  | fuel + 1 => do
      let waiting := (← get).waiting.reverse
      if !waiting.isEmpty then
        modify fun making => { making with waiting := [] }
        waiting.forM complete
        completeAll fuel

end Make

/-! ## Documents of nodes -/

/-- Gives documents to the nodes whose parts all have documents, the last node first. -/
def assemble (cells : Array Cell) (found : Array (Option Document)) : Array (Option Document) :=
  (List.range cells.size).foldr (fun id found =>
    let cell := cells.getD id (.list [])
    let isFound := fun id => (found.getD id none).isSome
    if !isFound id && cell.parts.all isFound then
      found.setIfInBounds id (some (cell.document fun id => (found.getD id none).getD .loop))
    else found) found

/-- The documents of all nodes that are not part of themselves and have no such parts. -/
def assembleAll (cells : Array Cell) : Nat → Array (Option Document) → Array (Option Document)
  | 0, found => found
  | fuel + 1, found =>
      let next := assemble cells found
      if next.countP Option.isSome = found.countP Option.isSome then found else assembleAll cells fuel next

/-- The levels at which a node may be part of itself.  Whoever looks at a document part by part looks no
deeper than that. -/
def openLevels : Nat := 5

/-- The document of a node, level by level.  `outer` holds the nodes around it below the open levels. -/
def unroll (cells : Array Cell) (found : Array (Option Document)) : Nat → Nat → List NodeId → NodeId → Document
  | 0, _, _, _ => .loop
  | fuel + 1, level, outer, id =>
      match found.getD id none with
      | some document => document
      | none =>
          if outer.contains id then .loop
          else
            let outer := if level < openLevels then outer else id :: outer
            (cells.getD id (.list [])).document (unroll cells found fuel (level + 1) outer)

def documentOf (root : NodeId) (nodes : Nodes) : Except Fault Document := do
  let start : Making := { nodes, cells := .replicate nodes.size none }
  let make : Make Unit := do
    Make.announce root
    Make.completeAll (nodes.size + 1)
  let (_, making) ← make.run start
  let cells := making.cells.map fun cell? => cell?.getD (.list [])
  let found := assembleAll cells (nodes.size + 1) (.replicate nodes.size none)
  return unroll cells found (openLevels + nodes.size + 1) 0 [] root

/-- Reads the document of a text.  A text without a document reads as null. -/
def parse (text : String) : Except Fault Document := do
  match ← nodesOfText? text with
  | none => return .null
  | some (root, nodes) => documentOf root nodes

end Extension.Yaml
