import Extension.Yaml.Tag

namespace Extension.Yaml

/-! The nodes of a YAML document.

The nodes stand in a table and name each other by their places in it.  An alias names a node once more, so
nodes may be shared, and a node may even be part of itself.
-/

abbrev NodeId := Nat

inductive Node.Content where
  | scalar (text : WideText)
  | list (items : List NodeId)
  | dict (entries : List (NodeId × NodeId))
deriving DecidableEq, Repr

structure Node where
  tag : Tag
  content : Node.Content
deriving DecidableEq, Repr

instance : Inhabited Node := ⟨⟨.null, .scalar ""⟩⟩

abbrev Nodes := Array Node

namespace Nodes

def node (nodes : Nodes) (id : NodeId) : Node :=
  nodes.getD id default

/-- The entries of a mapping; other nodes have none. -/
def entries (nodes : Nodes) (id : NodeId) : List (NodeId × NodeId) :=
  match (nodes.node id).content with
  | .dict entries => entries
  | .scalar _ | .list _ => []

def setTag (nodes : Nodes) (id : NodeId) (tag : Tag) : Nodes :=
  nodes.setIfInBounds id { nodes.node id with tag }

def setContent (nodes : Nodes) (id : NodeId) (content : Node.Content) : Nodes :=
  nodes.setIfInBounds id { nodes.node id with content }

end Nodes

end Extension.Yaml
