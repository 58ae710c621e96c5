import Extension.Proofs.Decision.Exploration
import Extension.Proofs.Decision.Warnings

namespace Extension.Decision

/-! The report on an explored tree agrees with the exploration.

Nothing is known of the rule but that its passes were accounted for, and that none is left in the queue.
-/

/-- What a report says of an exploration within a capacity, which need not be the one that it names. -/
structure Consistent (exploration : Exploration) (capacity : Nat) (report : Report) : Prop where
  recorded : report.passes = exploration.records.length
  leaves : report.passes = report.trueLeaves + report.falseLeaves
  tests : report.passes = report.atomCount + 1
  depth : 0 ≤ report.maxDepth ∧ report.maxDepth ≤ capacity
  combinations : report.passes ≤ 2 ^ report.maxDepth.toNat
  usage : (report.keyUsage.map Prod.snd).sum = report.atomCount
  keys : report.keyUsage.map Prod.fst = report.contextKeys
  distinct : report.distinctAtoms.Nodup
  read : ∀ text, text ∈ report.distinctAtoms ↔ ∃ record ∈ exploration.records, text ∈ Trail.texts record.transcript
  clauses : report.clauseCount + exploration.tree.nodes.countP Branch.isBoth = report.trueLeaves
  never : report.alwaysFalse = true ↔ report.clause = ""
  /-- A test is warned of if two nodes make it at different depths. -/
  warned : ∀ text, (∃ warning ∈ report.warnings, Warns warning text) ↔
    ∃ first ∈ exploration.tree.nodes, ∃ second ∈ exploration.tree.nodes,
      first.atom.text = text ∧ second.atom.text = text ∧ first.atom.depth ≠ second.atom.depth
  once : report.warnings.Nodup ∧ ∀ first ∈ report.warnings, ∀ second ∈ report.warnings, ∀ text,
    Warns first text → Warns second text → first = second

/-- The parts of a report, as the walk and the clauses give them. -/
structure Describes (tree : Tree) (maxAtoms passes : Nat) (report : Report) : Prop where
  passes : report.passes = passes
  clause : report.clause = tree.clause
  atomCount : report.atomCount = tree.atoms.length
  distinctAtoms : report.distinctAtoms = tree.atomTexts
  contextKeys : report.contextKeys = tree.contextKeys
  keyUsage : report.keyUsage = tally (tree.atoms.map Atom.key)
  depth : report.maxDepth = tree.maxDepth ∧ report.maxAtoms = maxAtoms
  trueLeaves : report.trueLeaves = tree.leaves.count true
  falseLeaves : report.falseLeaves = tree.leaves.length - tree.leaves.count true
  clauseCount : report.clauseCount = tree.clauses.length
  alwaysFalse : report.alwaysFalse = (tree.leaves.count true == 0)

theorem Tree.report?_describes {tree : Tree} {maxAtoms passes : Nat} {report : Report}
    (made : tree.report? maxAtoms passes = some report) : Describes tree maxAtoms passes report := by
  simp only [report?, Option.bind_eq_bind, Option.bind_eq_some_iff] at made
  obtain ⟨mark, _, made⟩ := made
  cases made
  exact ⟨rfl, rfl, rfl, rfl, rfl, rfl, ⟨rfl, rfl⟩, rfl, rfl, rfl, rfl⟩

theorem Tree.report?_of_mark (tree : Tree) {maxAtoms : Nat} {mark : Number.Binary64}
    (close : capacityMark? maxAtoms = some mark) (passes : Nat) :
    ∃ report, tree.report? maxAtoms passes = some report ∧ Describes tree maxAtoms passes report := by
  have made : (tree.report? maxAtoms passes).isSome = true := by
    rw [report?, close]
    rfl
  obtain ⟨report, made⟩ := Option.isSome_iff_exists.mp made
  exact ⟨report, made, report?_describes made⟩

theorem severalDepths_nodes {tree : Tree} {text : String} : SeveralDepths tree.atoms text ↔
    ∃ first ∈ tree.nodes, ∃ second ∈ tree.nodes,
      first.atom.text = text ∧ second.atom.text = text ∧ first.atom.depth ≠ second.atom.depth := by
  rw [SeveralDepths, Tree.atoms]
  constructor
  · rintro ⟨_, firstIn, _, secondIn, differ⟩
    obtain ⟨first, firstMet, rfl⟩ := List.mem_map.mp firstIn
    obtain ⟨second, secondMet, rfl⟩ := List.mem_map.mp secondIn
    exact ⟨first, firstMet, second, secondMet, differ⟩
  · rintro ⟨first, firstIn, second, secondIn, differ⟩
    exact ⟨_, List.mem_map_of_mem firstIn, _, List.mem_map_of_mem secondIn, differ⟩

namespace Accounted

variable {capacity : Nat} {exploration : Exploration}

theorem complete (accounted : Accounted capacity exploration) (empty : exploration.queue = []) :
    exploration.tree.onTrue.Complete := by
  refine Branch.complete_iff.mpr fun found member => ?_
  obtain ⟨record, _, rfl⟩ := List.mem_map.mp ((accounted.finalEnds empty).mem_iff.mpr member)
  exact Option.some_ne_none _

theorem maxDepth_bounds (accounted : Accounted capacity exploration) :
    0 ≤ exploration.tree.maxDepth ∧ exploration.tree.maxDepth ≤ capacity := by
  rcases exploration.tree.maxDepth_cases with none | ⟨node, member, same⟩
  · omega
  · have bounds := accounted.numbered.depth_bounds node
      ((Tree.nodes_perm_onTrue accounted.untouched).mem_iff.mp member)
    omega

/-- There are no more passes than combinations of answers within the depth of the tree. -/
theorem records_le (accounted : Accounted capacity exploration) (empty : exploration.queue = []) :
    exploration.records.length ≤ 2 ^ exploration.tree.maxDepth.toNat := by
  have total := (accounted.finalEnds empty).length_eq
  rw [List.length_map] at total
  have bound (node : Branch) (member : node ∈ exploration.tree.onTrue.subtrees) :
      node.atom.depth ≤ exploration.tree.maxDepth.toNat := by
    have there := (Tree.nodes_perm_onTrue accounted.untouched).mem_iff.mpr member
    have deep := exploration.tree.depth_le_maxDepth there
    have low := accounted.maxDepth_bounds.1
    omega
  rw [total]
  exact (accounted.numbered.within bound).ends_length_le

theorem read_iff (accounted : Accounted capacity exploration) (empty : exploration.queue = []) {text : String} :
    text ∈ exploration.tree.atomTexts ↔ ∃ record ∈ exploration.records, text ∈ Trail.texts record.transcript := by
  rw [Tree.mem_atomTexts_iff accounted.untouched]
  simp only [← (accounted.finalEnds empty).mem_iff, List.mem_map, exists_exists_and_eq_and, PassRecord.finalEnd]

theorem never_iff (accounted : Accounted capacity exploration) (empty : exploration.queue = []) :
    exploration.tree.leaves.count true = 0 ↔ exploration.tree.clause = "" := by
  have complete := accounted.complete empty
  rw [Tree.clause_eq_empty_iff, Tree.literalClauses_eq_nil complete,
    Tree.everywhere_iff accounted.untouched complete, List.count_eq_zero]
  constructor
  · intro never leaf member
    cases leaf with
    | true => exact absurd member never
    | false => rfl
  · intro all member
    cases all true member

/-- When the queue is empty, a report on the tree is consistent with the exploration, whatever capacity it is made
for. -/
theorem consistent (accounted : Accounted capacity exploration) (empty : exploration.queue = []) {maxAtoms : Nat}
    {report : Report} (made : exploration.tree.report? maxAtoms exploration.records.length = some report) :
    Consistent exploration capacity report ∧ report.maxAtoms = maxAtoms := by
  have describes := Tree.report?_describes made
  obtain ⟨others, _, warnings⟩ := Tree.report?_warnings made
  have recorded := (accounted.results_perm empty).length_eq
  rw [List.length_map] at recorded
  have total := Tree.leaves_length accounted.untouched (accounted.complete empty)
  have fits : exploration.tree.leaves.count true ≤ exploration.tree.leaves.length := List.count_le_length
  refine ⟨?_, describes.depth.2⟩
  exact {
    recorded := describes.passes
    leaves := by rw [describes.passes, describes.trueLeaves, describes.falseLeaves]; omega
    tests := by rw [describes.passes, describes.atomCount]; omega
    depth := by rw [describes.depth.1]; exact accounted.maxDepth_bounds
    combinations := by rw [describes.passes, describes.depth.1]; exact accounted.records_le empty
    usage := by rw [describes.keyUsage, describes.atomCount, tally_total, List.length_map]
    keys := by rw [describes.keyUsage, describes.contextKeys, tally_keys, Tree.contextKeys]
    distinct := by rw [describes.distinctAtoms]; exact nodup_eraseDups _
    read := fun text => by rw [describes.distinctAtoms]; exact accounted.read_iff empty
    clauses := by
      rw [describes.clauseCount, describes.trueLeaves, Tree.clauses, List.length_map]
      exact Tree.clauses_length accounted.untouched
    never := by rw [describes.alwaysFalse, describes.clause, beq_iff_eq]; exact accounted.never_iff empty
    warned := fun text => (Tree.report?_warns made text).trans severalDepths_nodes
    once := by
      refine ⟨by rw [warnings]; exact nodup_eraseDups _, fun first firstIn second secondIn text => ?_⟩
      exact Tree.report?_warns_once made firstIn secondIn }

end Accounted

end Extension.Decision
