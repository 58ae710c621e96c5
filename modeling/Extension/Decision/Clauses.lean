import Extension.Decision.Tree

namespace Extension.Decision

/-! The when-clause that a tree stands for.

Every way to a true result gives one clause, the conjunction of the literals along it.  A literal is left
out below a node one of whose sides is plainly true: `x || !x && y` is written `x || y`.
-/

def andSign : String := " && "

def orSign : String := " || "

/-- A test with the answer that a clause asks for. -/
structure Literal where
  text : String
  outcome : Bool
deriving DecidableEq, Repr, Inhabited

/-- The test as it is written, negated for the false side. -/
def Literal.display (literal : Literal) : String :=
  if literal.outcome then literal.text else "!" ++ literal.text

def conjunction (literals : List Literal) : String :=
  andSign.intercalate (literals.map Literal.display)

namespace Branch

def isTrue : Branch → Bool
  | .result true => true
  | _ => false

def extend (literals : List Literal) (atom : Atom) (onTrue onFalse : Branch) (outcome : Bool) : List Literal :=
  if onTrue.isTrue || onFalse.isTrue then literals else literals ++ [⟨atom.text, outcome⟩]

/-- The clause of the node itself: its path alone if both sides are true, its path with the literal of the
one true side, or none. -/
def ownClause (literals : List Literal) (atom : Atom) (onTrue onFalse : Branch) : List (List Literal) :=
  if onTrue.isTrue && onFalse.isTrue then [literals]
  else if onTrue.isTrue then [literals ++ [⟨atom.text, true⟩]]
  else if onFalse.isTrue then [literals ++ [⟨atom.text, false⟩]]
  else []

/-- The clauses of the nodes of a branch, by recursion: a node's own clause, then those of its true side,
then those of its false side. -/
def clausesBelow (literals : List Literal) : Branch → List (List Literal)
  | .node atom onTrue onFalse =>
      ownClause literals atom onTrue onFalse ++
        clausesBelow (extend literals atom onTrue onFalse true) onTrue ++
        clausesBelow (extend literals atom onTrue onFalse false) onFalse
  | _ => []

end Branch

/-- A node that is still to be looked at, with the literals that lead to it. -/
structure Pending where
  branch : Branch
  literals : List Literal

def pendingWork : List Pending → Nat
  | [] => 0
  | pending :: stack => 2 * pending.branch.size + 1 + pendingWork stack

/-- The clauses of all pending nodes, the top of the stack first. -/
def clausesFrom : List Pending → List (List Literal)
  | [] => []
  | ⟨.node atom onTrue onFalse, literals⟩ :: stack =>
      Branch.ownClause literals atom onTrue onFalse ++
        clausesFrom (⟨onTrue, Branch.extend literals atom onTrue onFalse true⟩ ::
          ⟨onFalse, Branch.extend literals atom onTrue onFalse false⟩ :: stack)
  | ⟨.unresolved, _⟩ :: stack | ⟨.result _, _⟩ :: stack => clausesFrom stack
termination_by stack => pendingWork stack
decreasing_by all_goals simp only [pendingWork, Branch.size]; omega

namespace Tree

/-- The clauses of the tree as lists of literals.  A tree that is plainly true has one without literals. -/
def literalClauses (tree : Tree) : List (List Literal) :=
  match tree.onTrue with
  | .unresolved | .result false => []
  | .result true => [[]]
  | .node atom onTrue onFalse => clausesFrom [⟨.node atom onTrue onFalse, []⟩]

def clauses (tree : Tree) : List String :=
  tree.literalClauses.map conjunction

/-- The whole clause: empty if the tree is never true, and the word `true` if one of its clauses is empty. -/
def clause (tree : Tree) : String :=
  if tree.clauses.contains "" then "true" else orSign.intercalate tree.clauses

end Tree

end Extension.Decision
