import Extension.Decision.Walk

namespace Extension.Decision

/-! Trees written as a table of nodes.

A row holds a test and what stands on its two sides, a child by the number of its row.  The table of a
tree has its nodes in breadth-first order.  A table that is written by hand may name one row in several
places; the node then stands for itself at each of them.
-/

inductive Target where
  | unresolved
  | result (value : Bool)
  | row (index : Nat)
deriving DecidableEq, Repr, Inhabited

structure Row where
  atom : Atom
  onTrue : Target
  onFalse : Target
deriving DecidableEq, Repr, Inhabited

structure Graph where
  onTrue : Target
  onFalse : Target
  rows : List Row
deriving DecidableEq, Repr, Inhabited

/-- A branch as a target, if its node gets the given number, and the number of the next node. -/
def Branch.target (next : Nat) : Branch → Target × Nat
  | .unresolved => (.unresolved, next)
  | .result value => (.result value, next)
  | .node _ _ _ => (.row next, next + 1)

/-- The rows of nodes in breadth-first order; `next` is the number of the first child of the first node. -/
def rowsFrom (next : Nat) : List Branch → List Row
  | [] => []
  | node :: rest =>
      let (onTrue, afterTrue) := node.onTrue.target next
      let (onFalse, afterFalse) := node.onFalse.target afterTrue
      ⟨node.atom, onTrue, onFalse⟩ :: rowsFrom afterFalse rest

def Tree.graph (tree : Tree) : Graph :=
  let (onTrue, afterTrue) := tree.onTrue.target 0
  let (onFalse, afterFalse) := tree.onFalse.target afterTrue
  { onTrue, onFalse, rows := rowsFrom afterFalse tree.nodes }

namespace Graph

/-- The branch that a target stands for, unfolded to at most `height` nodes along each path. -/
def unfold (graph : Graph) : Nat → Target → Branch
  | _, .unresolved => .unresolved
  | _, .result value => .result value
  | 0, .row _ => .unresolved
  | height + 1, .row index =>
      match graph.rows[index]? with
      | some row => .node row.atom (graph.unfold height row.onTrue) (graph.unfold height row.onFalse)
      | none => .unresolved

/-- The tree that the table stands for.  No path without a cycle is longer than the table. -/
def tree (graph : Graph) : Tree :=
  { onTrue := graph.unfold graph.rows.length graph.onTrue
    onFalse := graph.unfold graph.rows.length graph.onFalse }

def Target.index? : Target → Option Nat
  | .row index => some index
  | _ => none

def below (graph : Graph) (index : Nat) : List Nat :=
  match graph.rows[index]? with
  | some row => [row.onTrue, row.onFalse].filterMap Target.index?
  | none => []

def levels (graph : Graph) : Nat → List Nat → List Nat
  | 0, _ => []
  | _ + 1, [] => []
  | height + 1, level => level ++ graph.levels height (level.flatMap graph.below)

/-- The row numbers in breadth-first order, once for each path that leads to the row. -/
def occurrences (graph : Graph) : List Nat :=
  graph.levels graph.rows.length ([graph.onTrue, graph.onFalse].filterMap Target.index?)

end Graph

end Extension.Decision
