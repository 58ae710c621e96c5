import Extension.Decision.Walk
import Extension.Proofs.Decision.Ends

namespace Extension.Decision

/-! What a breadth-first walk meets.

The walk meets the nodes of a tree in an order of its own, but each once.  So what is counted on the walk is
counted on the tree: its nodes, its leaves, and whether it is resolved.
-/

namespace Branch

/-- The nodes of a branch, each before those below it. -/
def subtrees : Branch → List Branch
  | .node atom onTrue onFalse => .node atom onTrue onFalse :: (onTrue.subtrees ++ onFalse.subtrees)
  | _ => []

theorem here_subtrees (branch : Branch) : branch.here.flatMap subtrees = branch.subtrees := by
  cases branch <;> simp [here, subtrees]

theorem children_subtrees (atom : Atom) (onTrue onFalse : Branch) :
    (Branch.node atom onTrue onFalse).children.flatMap subtrees = onTrue.subtrees ++ onFalse.subtrees := by
  simp [children, here_subtrees]

def isNode : Branch → Bool
  | .node _ _ _ => true
  | _ => false

theorem here_isNode {branch found : Branch} (member : found ∈ branch.here) : found.isNode = true := by
  cases branch <;> simp [here] at member
  subst found
  rfl

theorem children_isNode {branch found : Branch} (member : found ∈ branch.children) : found.isNode = true := by
  cases branch with
  | node atom onTrue onFalse =>
      rcases List.mem_append.mp member with onTrue | onFalse
      · exact here_isNode onTrue
      · exact here_isNode onFalse
  | _ => simp [children] at member

theorem subtrees_length (branch : Branch) : branch.subtrees.length = branch.size := by
  induction branch with
  | unresolved => rfl
  | result value => rfl
  | node atom onTrue onFalse trueIH falseIH => simp [subtrees, size, trueIH, falseIH]

end Branch

open Branch

theorem walk_perm (queue : List Branch) (nodes : ∀ branch ∈ queue, branch.isNode = true) :
    (walk queue).Perm (queue.flatMap subtrees) := by
  induction queue using walk.induct with
  | case1 => simp [walk]
  | case2 branch queue ih =>
      have walked := ih fun found member => by
        rcases List.mem_append.mp member with waiting | below
        · exact nodes found (List.mem_cons_of_mem _ waiting)
        · exact children_isNode below
      have isNode := nodes branch List.mem_cons_self
      rw [walk, List.flatMap_cons]
      cases branch with
      | unresolved => contradiction
      | result value => contradiction
      | node atom onTrue onFalse =>
          rw [List.flatMap_append, children_subtrees] at walked
          exact .cons _ (walked.trans List.perm_append_comm)

namespace Tree

/-- The walk over a tree meets each of its nodes once. -/
theorem nodes_perm (tree : Tree) : tree.nodes.Perm (tree.onTrue.subtrees ++ tree.onFalse.subtrees) := by
  have walked := walk_perm (tree.onTrue.here ++ tree.onFalse.here) fun found member => by
    rcases List.mem_append.mp member with onTrue | onFalse
    · exact here_isNode onTrue
    · exact here_isNode onFalse
  rwa [List.flatMap_append, here_subtrees, here_subtrees] at walked

theorem nodes_length (tree : Tree) : tree.nodes.length = tree.size := by
  rw [tree.nodes_perm.length_eq, List.length_append, subtrees_length, subtrees_length, size]

end Tree

namespace Branch

def results (branch : Branch) : List Bool :=
  [branch.onTrue, branch.onFalse].filterMap result?

theorem interleave_perm (first second third last : List α) :
    ((first ++ second) ++ (third ++ last)).Perm ((first ++ third) ++ (second ++ last)) := by
  rw [List.append_assoc, List.append_assoc]
  exact .append_left first (List.perm_append_comm_assoc second third last)

theorem endResults_below (trail : Trail) (found : List End) :
    (found.map (End.below trail)).filterMap Prod.snd = found.filterMap Prod.snd := by
  rw [List.filterMap_map]
  rfl

theorem results_pair (left right : Branch) :
    [left, right].filterMap result? = left.result?.toList ++ right.result?.toList := by
  cases left <;> cases right <;> rfl

theorem results_node (atom : Atom) (onTrue onFalse : Branch) :
    (Branch.node atom onTrue onFalse).results = onTrue.result?.toList ++ onFalse.result?.toList :=
  results_pair onTrue onFalse

/-- A result at the top and those beside the nodes are the results at the ends. -/
theorem results_perm (branch : Branch) :
    (branch.result?.toList ++ branch.subtrees.flatMap results).Perm (branch.ends.filterMap Prod.snd) := by
  induction branch with
  | unresolved => simp [result?, subtrees, ends]
  | result value => simp [result?, subtrees, ends]
  | node atom onTrue onFalse trueIH falseIH =>
      rw [ends, List.filterMap_append, endResults_below, endResults_below]
      simp only [result?, Option.toList_none, List.nil_append, subtrees, List.flatMap_cons,
        List.flatMap_append, results_node]
      exact (interleave_perm _ _ _ _).trans (trueIH.append falseIH)

theorem complete_iff_resolved {branch : Branch} :
    branch.Complete ↔ branch.isResolved = true ∧
      ∀ node ∈ branch.subtrees, node.onTrue.isResolved = true ∧ node.onFalse.isResolved = true := by
  induction branch with
  | unresolved => simp [isResolved, Complete]
  | result value => simp [isResolved, subtrees, Complete]
  | node atom onTrue onFalse trueIH falseIH =>
      rw [Complete, trueIH, falseIH]
      simp only [isResolved, subtrees, List.forall_mem_cons, List.forall_mem_append, Branch.onTrue,
        Branch.onFalse, true_and]
      constructor
      · rintro ⟨⟨trueSide, below⟩, falseSide, above⟩
        exact ⟨⟨trueSide, falseSide⟩, below, above⟩
      · rintro ⟨⟨trueSide, falseSide⟩, below, above⟩
        exact ⟨⟨trueSide, below⟩, falseSide, above⟩

end Branch

namespace Tree

/-- The leaves of a tree are the results at its ends. -/
theorem leaves_perm (tree : Tree) :
    tree.leaves.Perm ((tree.onTrue.ends ++ tree.onFalse.ends).filterMap Prod.snd) := by
  have below := tree.nodes_perm.flatMap_right results
  rw [List.flatMap_append] at below
  rw [leaves, results_pair, List.filterMap_append]
  calc
    (tree.onTrue.result?.toList ++ tree.onFalse.result?.toList) ++ tree.nodes.flatMap results
    _ |>.Perm ((tree.onTrue.result?.toList ++ tree.onFalse.result?.toList) ++
        (tree.onTrue.subtrees.flatMap results ++ tree.onFalse.subtrees.flatMap results)) := below.append_left _
    _ |>.Perm _ := interleave_perm _ _ _ _
    _ |>.Perm _ := (results_perm tree.onTrue).append (results_perm tree.onFalse)

/-- A tree whose root has nothing on its false side is resolved when none of its ends is open. -/
theorem isResolved_iff {tree : Tree} (untouched : tree.onFalse = .unresolved) :
    tree.isResolved = true ↔ tree.onTrue.Complete := by
  have same (node : Branch) : node ∈ tree.nodes ↔ node ∈ tree.onTrue.subtrees := by
    rw [tree.nodes_perm.mem_iff, untouched]
    simp [subtrees]
  rw [complete_iff_resolved, isResolved, Bool.and_eq_true, List.all_eq_true]
  simp only [Bool.and_eq_true, same]

end Tree

end Extension.Decision
