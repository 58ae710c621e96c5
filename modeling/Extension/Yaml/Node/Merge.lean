import Extension.Yaml.Fault
import Extension.Yaml.Node.Basic

namespace Extension.Yaml.Nodes

/-! Mappings that take in other mappings.

An entry with the merge key names a mapping, or a list of mappings, whose entries are put before those of its
own mapping.  The entries of a list of mappings stand in the order from the last mapping to the first.
-/

abbrev Entry := NodeId × NodeId

def isKind (nodes : Nodes) (id : NodeId) (tag : Tag) : Bool :=
  (nodes.node id).tag == tag

/-- The value of the first merge entry, and the entries without it. -/
def splitMerge? (nodes : Nodes) : List Entry → Option (NodeId × List Entry)
  | [] => none
  | (key, value) :: rest =>
      if nodes.isKind key .merge then some (value, rest)
      else (splitMerge? nodes rest).map fun (merged, rest) => (merged, (key, value) :: rest)

def mergeCount (nodes : Nodes) : Nat :=
  nodes.foldl (fun count node =>
    match node.content with
    | .dict entries => count + entries.countP fun entry => nodes.isKind entry.1 .merge
    | .scalar _ | .list _ => count) 0

/-- Puts the entries that are taken in before those of the mapping.  A key that is the sign of equality
becomes a text. -/
def settle (nodes : Nodes) (id : NodeId) (taken : List Entry) : Nodes :=
  let own := nodes.entries id
  let nodes := own.foldl (fun nodes (key, _) => if nodes.isKind key .value then nodes.setTag key .str else nodes) nodes
  if taken.isEmpty then nodes else nodes.setContent id (.dict (taken ++ own))

/-- Takes in what the merge entries of a mapping name, behind what is taken in already.  Every step takes one
merge entry away, so their number bounds the steps. -/
def takeIn : Nat → NodeId → List Entry → Nodes → Except Fault Nodes
  | 0, id, taken, nodes => .ok (nodes.settle id taken)
  | fuel + 1, id, taken, nodes =>
      match nodes.splitMerge? (nodes.entries id) with
      | none => .ok (nodes.settle id taken)
      | some (merged, own) => do
          let nodes := nodes.setContent id (.dict own)
          match (nodes.node merged).content with
          | .dict _ =>
              let nodes ← takeIn fuel merged [] nodes
              takeIn fuel id (taken ++ nodes.entries merged) nodes
          | .list items =>
              let (nodes, parts) ← items.foldlM (fun (nodes, parts) item => do
                match (nodes.node item).content with
                | .dict _ =>
                    let nodes ← takeIn fuel item [] nodes
                    return (nodes, nodes.entries item :: parts)
                | .scalar _ | .list _ => fail .merge) (nodes, [])
              takeIn fuel id (taken ++ parts.flatten) nodes
          | .scalar _ => fail .merge

def flatten (nodes : Nodes) (id : NodeId) : Except Fault Nodes :=
  takeIn nodes.mergeCount id [] nodes

end Extension.Yaml.Nodes
