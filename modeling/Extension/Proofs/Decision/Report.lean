import Extension.Decision.Report
import Extension.Proofs.Decision.Clauses

namespace Extension.Decision

/-! Trees with the same result everywhere, as reports and walks see them. -/

namespace Branch

theorem straight_iff {branch : Branch} :
    branch.Straight ↔ ∀ node ∈ branch.subtrees, ¬ (node.onTrue.isNode = true ∧ node.onFalse.isNode = true) := by
  induction branch with
  | unresolved => simp [Straight, subtrees]
  | result value => simp [Straight, subtrees]
  | node atom onTrue onFalse trueIH falseIH =>
      rw [Straight, trueIH, falseIH, subtrees, List.forall_mem_cons, List.forall_mem_append]
      rfl

end Branch

namespace Tree

variable {tree : Tree}

theorem straight_iff (untouched : tree.onFalse = .unresolved) :
    tree.onTrue.Straight ↔ ∀ node ∈ tree.nodes, ¬ (node.onTrue.isNode = true ∧ node.onFalse.isNode = true) := by
  have same (node : Branch) : node ∈ tree.nodes ↔ node ∈ tree.onTrue.subtrees := by
    rw [tree.nodes_perm.mem_iff, untouched]
    simp [Branch.subtrees]
  rw [Branch.straight_iff]
  simp only [same]

theorem mem_leaves_iff (untouched : tree.onFalse = .unresolved) {leaf : Bool} :
    leaf ∈ tree.leaves ↔ ∃ found ∈ tree.onTrue.ends, found.2 = some leaf := by
  rw [tree.leaves_perm.mem_iff, untouched]
  simp [Branch.ends]

theorem everywhere_iff (untouched : tree.onFalse = .unresolved) (complete : tree.onTrue.Complete) {value : Bool} :
    tree.onTrue.Everywhere value ↔ ∀ leaf ∈ tree.leaves, leaf = value := by
  simp only [mem_leaves_iff untouched]
  constructor
  · rintro everywhere leaf ⟨found, member, result⟩
    rw [everywhere found member] at result
    exact (Option.some.inj result).symm
  · intro all found member
    obtain ⟨leaf, result⟩ := Option.ne_none_iff_exists'.mp (Branch.complete_iff.mp complete found member)
    rw [result, all leaf ⟨found, member, result⟩]

theorem leaves_ne_nil (untouched : tree.onFalse = .unresolved) (complete : tree.onTrue.Complete) :
    tree.leaves ≠ [] := by
  intro none
  have both (value : Bool) : tree.onTrue.Everywhere value :=
    (everywhere_iff untouched complete).mpr (by simp [none])
  have some : 0 < tree.onTrue.ends.length := by
    rw [Branch.ends_length]
    omega
  have member := List.getElem_mem some
  have one := both true _ member
  rw [both false _ member] at one
  cases one

/-- A report calls a tree constant when all its leaves are the same. -/
theorem report?_always {maxAtoms passes : Nat} {report : Report}
    (made : tree.report? maxAtoms passes = some report) (leaves : tree.leaves ≠ []) :
    (report.alwaysTrue = true ↔ ∀ leaf ∈ tree.leaves, leaf = true) ∧
      (report.alwaysFalse = true ↔ ∀ leaf ∈ tree.leaves, leaf = false) := by
  simp only [report?, Option.bind_eq_bind, Option.bind_eq_some_iff] at made
  obtain ⟨mark, _, made⟩ := made
  cases made
  have fits : tree.leaves.count true ≤ tree.leaves.length := List.count_le_length
  have some := List.length_pos_iff.mpr leaves
  constructor
  · rw [Bool.and_eq_true, beq_iff_eq, decide_eq_true_eq]
    constructor
    · rintro ⟨noFalse, _⟩ leaf member
      have whole : tree.leaves.count true = tree.leaves.length := by omega
      exact (List.count_eq_length.mp whole leaf member).symm
    · intro all
      have whole : tree.leaves.count true = tree.leaves.length :=
        List.count_eq_length.mpr fun leaf member => (all leaf member).symm
      omega
  · rw [beq_iff_eq, List.count_eq_zero]
    constructor
    · intro never leaf member
      cases leaf with
      | true => exact absurd member never
      | false => rfl
    · intro all member
      exact Bool.noConfusion (all true member)

end Tree

end Extension.Decision
