namespace Extension.Decision

/-! Decision trees: what running a rule under different answers brings to light.

A position in the tree is the list of answers that leads to it from the root.  Before any answer comes
the position that a rule starts from; it hangs on the true side of a root that makes no test.
-/

/-- One test, as a clause spells it, with its place along its path and the key that it reads. -/
structure Atom where
  text : String
  depth : Int
  key : String
deriving DecidableEq, Repr, Inhabited

inductive Branch where
  /-- No pass has come here and ended. -/
  | unresolved
  /-- The rule returned here. -/
  | result (value : Bool)
  /-- The rule made a test here, and went on by its answer. -/
  | node (atom : Atom) (onTrue onFalse : Branch)
deriving DecidableEq, Repr

instance : Inhabited Branch := ⟨.unresolved⟩

namespace Branch

def isResolved : Branch → Bool
  | .unresolved => false
  | _ => true

def follow : Branch → List Bool → Option Branch
  | branch, [] => some branch
  | .node _ onTrue onFalse, answer :: path => if answer then onTrue.follow path else onFalse.follow path
  | _, _ :: _ => none
termination_by structural _ path => path

/-- Puts a branch at the end of a path.  A path that leaves the tree changes nothing. -/
def put : Branch → List Bool → Branch → Branch
  | _, [], new => new
  | .node atom onTrue onFalse, answer :: path, new =>
      if answer then .node atom (onTrue.put path new) onFalse
      else .node atom onTrue (onFalse.put path new)
  | branch, _ :: _, _ => branch
termination_by structural _ path _ => path

def size : Branch → Nat
  | .node _ onTrue onFalse => onTrue.size + onFalse.size + 1
  | _ => 0

/-- Where a truth assignment to the tests leads: the result there, false if there is none. -/
def decide (truth : String → Bool) : Branch → Bool
  | .unresolved => false
  | .result value => value
  | .node atom onTrue onFalse => if truth atom.text then onTrue.decide truth else onFalse.decide truth

end Branch

/-- The root makes no test: a rule starts on its true side, and its false side stays unresolved in
every tree that is explored. -/
structure Tree where
  onTrue : Branch := .unresolved
  onFalse : Branch := .unresolved
deriving DecidableEq, Repr, Inhabited

namespace Tree

def empty : Tree := {}

def rootAtom : Atom := { text := "", depth := 0, key := "" }

def at? (tree : Tree) (position : List Bool) : Option Branch :=
  tree.onTrue.follow position

def put (tree : Tree) (position : List Bool) (new : Branch) : Tree :=
  { tree with onTrue := tree.onTrue.put position new }

/-- The test whose answer leads to a position. -/
def atomBefore (tree : Tree) (position : List Bool) : Atom :=
  if position = [] then rootAtom
  else match tree.at? position.dropLast with
    | some (.node atom _ _) => atom
    | _ => rootAtom

def size (tree : Tree) : Nat :=
  tree.onTrue.size + tree.onFalse.size

end Tree

theorem Branch.follow_append (branch : Branch) (path more : List Bool) :
    branch.follow (path ++ more) = (branch.follow path).bind (·.follow more) := by
  induction path generalizing branch with
  | nil => rfl
  | cons answer path ih =>
      cases branch with
      | unresolved => rfl
      | result value => rfl
      | node atom onTrue onFalse => cases answer <;> exact ih _

theorem Branch.follow_put {branch new : Branch} {path : List Bool}
    (found : (branch.follow path).isSome) :
    (branch.put path new).follow path = some new := by
  induction path generalizing branch with
  | nil => rfl
  | cons answer path ih =>
      cases branch with
      | unresolved => contradiction
      | result value => contradiction
      | node atom onTrue onFalse => cases answer <;> exact ih found

end Extension.Decision
