import Extension.Decision.Tree

namespace Extension.Decision

/-! Walking over a tree, breadth first.

The walk keeps a queue of nodes whose children have not been seen.  It starts with the children of the
root and meets every node once for each path that leads to it.
-/

namespace Branch

def here : Branch → List Branch
  | .node atom onTrue onFalse => [.node atom onTrue onFalse]
  | _ => []

/-- The nodes right below a node, the true side first. -/
def children : Branch → List Branch
  | .node _ onTrue onFalse => onTrue.here ++ onFalse.here
  | _ => []

/-- The nodes below a branch, itself included, on one level: `depth` steps down. -/
def level : Nat → Branch → List Branch
  | 0, branch => branch.here
  | depth + 1, .node _ onTrue onFalse => onTrue.level depth ++ onFalse.level depth
  | _ + 1, _ => []

/-- An upper bound on the steps that a walk makes from here. -/
def weight (branch : Branch) : Nat :=
  2 * branch.size + 1

def totalWeight : List Branch → Nat
  | [] => 0
  | branch :: rest => branch.weight + totalWeight rest

theorem totalWeight_append (first second : List Branch) :
    totalWeight (first ++ second) = totalWeight first + totalWeight second := by
  induction first with
  | nil => simp [totalWeight]
  | cons branch rest ih => rw [List.cons_append, totalWeight, ih, totalWeight, Nat.add_assoc]

theorem totalWeight_children (branch : Branch) : totalWeight branch.children < branch.weight := by
  cases branch with
  | unresolved => decide
  | result value => simp [children, totalWeight, weight]
  | node atom onTrue onFalse =>
      cases onTrue <;> cases onFalse <;> simp [children, here, totalWeight, weight, size]
      all_goals omega

end Branch

/-- The nodes in the order in which a queue lets them out. -/
def walk : List Branch → List Branch
  | [] => []
  | branch :: queue => branch :: walk (queue ++ branch.children)
termination_by queue => Branch.totalWeight queue
decreasing_by
  have lighter := branch.totalWeight_children
  rw [Branch.totalWeight_append, Branch.totalWeight]
  omega

namespace Branch

def atom : Branch → Atom
  | .node atom _ _ => atom
  | _ => Tree.rootAtom

def onTrue : Branch → Branch
  | .node _ branch _ => branch
  | other => other

def onFalse : Branch → Branch
  | .node _ _ branch => branch
  | other => other

def result? : Branch → Option Bool
  | .result value => some value
  | _ => none

end Branch

namespace Tree

/-- Every node below the root, breadth first. -/
def nodes (tree : Tree) : List Branch :=
  walk (tree.onTrue.here ++ tree.onFalse.here)

def atoms (tree : Tree) : List Atom :=
  tree.nodes.map Branch.atom

/-- The texts of the tests, each once, in the order of discovery. -/
def atomTexts (tree : Tree) : List String :=
  (tree.atoms.map Atom.text).eraseDups

/-- The context keys that are read, each once, in the order of discovery. -/
def contextKeys (tree : Tree) : List String :=
  (tree.atoms.map Atom.key).eraseDups

def maxDepth (tree : Tree) : Int :=
  (tree.atoms.map Atom.depth).max?.getD 0

/-- Is the true side of the root resolved, and both sides of every node? -/
def isResolved (tree : Tree) : Bool :=
  tree.onTrue.isResolved &&
    tree.nodes.all fun node => node.onTrue.isResolved && node.onFalse.isResolved

/-- The results in the tree, breadth first, those at the root included. -/
def leaves (tree : Tree) : List Bool :=
  [tree.onTrue, tree.onFalse].filterMap Branch.result? ++
    tree.nodes.flatMap fun node => [node.onTrue, node.onFalse].filterMap Branch.result?

end Tree

end Extension.Decision
