import Mathlib.Algebra.BigOperators.Group.List.Lemmas
import Mathlib.Algebra.GroupWithZero.Nat
import Extension.Proofs.Decision.Report

namespace Extension.Decision

/-! What a report counts.

The walk meets each node once, so that all counts are counts over the nodes of the tree: of its tests, of their keys,
of their depths, and of the clauses that come from them.
-/

theorem nodup_eraseDups {α : Type} [BEq α] [LawfulBEq α] (values : List α) : values.eraseDups.Nodup := by
  induction length : values.length using Nat.strong_induction_on generalizing values with
  | _ count ih =>
      cases values with
      | nil => simp
      | cons value rest =>
          have shorter := List.length_filter_le (fun other => !other == value) rest
          rw [List.length_cons] at length
          rw [List.eraseDups_cons, List.nodup_cons]
          refine ⟨fun again => ?_, ih _ (by omega) _ rfl⟩
          simp [List.mem_eraseDups] at again

theorem tally_keys (texts : List String) : (tally texts).map Prod.fst = texts.eraseDups := by
  rw [tally, List.map_map]
  exact List.map_id _

theorem tally_total (texts : List String) : ((tally texts).map Prod.snd).sum = texts.length := by
  have same : texts.eraseDups.Perm texts.dedup :=
    (List.perm_ext_iff_of_nodup (nodup_eraseDups texts) texts.nodup_dedup).mpr fun text => by
      rw [List.mem_eraseDups, List.mem_dedup]
  rw [tally, List.map_map, ← List.sum_map_count_dedup_eq_length texts]
  exact (same.map _).sum_eq

def Trail.texts (trail : Trail) : List String :=
  trail.map Prod.fst

namespace Branch

theorem ends_ne_nil (branch : Branch) : branch.ends ≠ [] := by
  apply List.ne_nil_of_length_pos
  rw [ends_length]
  exact Nat.succ_pos _

/-- Every test stands on the way to an end. -/
theorem mem_texts_iff {branch : Branch} {text : String} :
    text ∈ branch.subtrees.map (fun node => node.atom.text) ↔ ∃ found ∈ branch.ends, text ∈ found.1.texts := by
  induction branch with
  | unresolved => simp [subtrees, ends, Trail.texts]
  | result value => simp [subtrees, ends, Trail.texts]
  | node atom onTrue onFalse trueIH falseIH =>
      have below (answer : Bool) (side : Branch) :
          (∃ found ∈ side.ends.map (End.below [(atom.text, answer)]), text ∈ found.1.texts) ↔
            text = atom.text ∨ ∃ found ∈ side.ends, text ∈ found.1.texts := by
        obtain ⟨first, member⟩ := List.exists_mem_of_ne_nil _ side.ends_ne_nil
        constructor
        · rintro ⟨_, there, inside⟩
          obtain ⟨found, member, rfl⟩ := List.mem_map.mp there
          rcases List.mem_cons.mp inside with same | inside
          · exact .inl same
          · exact .inr ⟨found, member, inside⟩
        · rintro (rfl | ⟨found, there, inside⟩)
          · exact ⟨_, List.mem_map_of_mem member, List.mem_cons_self ..⟩
          · exact ⟨_, List.mem_map_of_mem there, List.mem_cons_of_mem _ inside⟩
      simp only [subtrees, ends, List.map_cons, List.map_append, List.mem_cons, List.mem_append, or_and_right,
        exists_or, trueIH, falseIH, below]
      exact or_or_distrib_left

/-- A branch is numbered within any bound that all its tests keep to. -/
theorem Numbered.within {capacity depth limit : Nat} {branch : Branch} (numbered : branch.Numbered capacity depth)
    (bound : ∀ node ∈ branch.subtrees, node.atom.depth ≤ limit) : branch.Numbered limit depth := by
  induction branch generalizing depth with
  | unresolved => trivial
  | result value => trivial
  | node atom onTrue onFalse trueIH falseIH =>
      obtain ⟨number, _, trueSide, falseSide⟩ := numbered
      simp only [subtrees, List.forall_mem_cons, List.forall_mem_append] at bound
      obtain ⟨here, trueBound, falseBound⟩ := bound
      refine ⟨number, ?_, trueIH trueSide trueBound, falseIH falseSide falseBound⟩
      rw [Branch.atom, number] at here
      omega

theorem Numbered.depth_bounds {capacity depth : Nat} {branch : Branch} (numbered : branch.Numbered capacity depth) :
    ∀ node ∈ branch.subtrees, depth < node.atom.depth ∧ node.atom.depth ≤ capacity := by
  induction branch generalizing depth with
  | unresolved => simp [subtrees]
  | result value => simp [subtrees]
  | node atom onTrue onFalse trueIH falseIH =>
      obtain ⟨number, room, trueSide, falseSide⟩ := numbered
      have deeper {side : Branch}
          (bounds : ∀ node ∈ side.subtrees, ↑(depth + 1) < node.atom.depth ∧ node.atom.depth ≤ capacity)
          (node : Branch) (member : node ∈ side.subtrees) : ↑depth < node.atom.depth ∧ node.atom.depth ≤ capacity := by
        have bound := bounds node member
        omega
      simp only [subtrees, List.forall_mem_cons, List.forall_mem_append]
      refine ⟨?_, deeper (trueIH trueSide), deeper (falseIH falseSide)⟩
      rw [Branch.atom, number]
      omega

def isBoth (node : Branch) : Bool :=
  node.onTrue.isTrue && node.onFalse.isTrue

/-- Two true results beside one node make one clause, and every other one makes its own. -/
theorem clausesBelow_length (branch : Branch) (literals : List Literal) :
    (clausesBelow literals branch).length + branch.subtrees.countP isBoth + branch.isTrue.toNat =
      (branch.ends.filterMap Prod.snd).count true := by
  induction branch generalizing literals with
  | unresolved => simp [clausesBelow, subtrees, ends, isTrue]
  | result value => cases value <;> simp [clausesBelow, subtrees, ends, isTrue]
  | node atom onTrue onFalse trueIH falseIH =>
      -- a plain true side has no clause of its own, so the node above it accounts for it
      have own : (ownClause literals atom onTrue onFalse).length + (onTrue.isTrue && onFalse.isTrue).toNat =
          onTrue.isTrue.toNat + onFalse.isTrue.toNat := by
        rw [ownClause]
        cases onTrue.isTrue <;> cases onFalse.isTrue <;> rfl
      have left := trueIH (extend literals atom onTrue onFalse true)
      have right := falseIH (extend literals atom onTrue onFalse false)
      have here : [Branch.node atom onTrue onFalse].countP isBoth = (onTrue.isTrue && onFalse.isTrue).toNat := by
        rw [List.countP_singleton]
        change (if (onTrue.isTrue && onFalse.isTrue) = true then 1 else 0) = _
        cases onTrue.isTrue && onFalse.isTrue <;> rfl
      have plain : (Branch.node atom onTrue onFalse).isTrue.toNat = 0 := rfl
      rw [ends, List.filterMap_append, endResults_below, endResults_below, List.count_append, subtrees,
        ← List.singleton_append, List.countP_append, List.countP_append, here, clausesBelow, List.length_append,
        List.length_append, plain]
      omega

end Branch

namespace Tree

variable {tree : Tree}

theorem nodes_perm_onTrue (untouched : tree.onFalse = .unresolved) : tree.nodes.Perm tree.onTrue.subtrees := by
  have walked := tree.nodes_perm
  rw [untouched] at walked
  exact walked.trans (.of_eq (List.append_nil _))

theorem leaves_perm_ends (untouched : tree.onFalse = .unresolved) :
    tree.leaves.Perm (tree.onTrue.ends.filterMap Prod.snd) := by
  simpa [untouched, Branch.ends] using tree.leaves_perm

/-- A tree without an open end has one leaf more than it has tests. -/
theorem leaves_length (untouched : tree.onFalse = .unresolved) (complete : tree.onTrue.Complete) :
    tree.leaves.length = tree.atoms.length + 1 := by
  have found : (tree.onTrue.ends.filterMap Prod.snd).length = tree.onTrue.ends.length := by
    rw [List.length_filterMap_eq_countP, List.countP_eq_length]
    exact fun found member => Option.isSome_iff_ne_none.mpr (Branch.complete_iff.mp complete found member)
  rw [(leaves_perm_ends untouched).length_eq, found, Branch.ends_length, atoms, List.length_map, nodes_length, size,
    untouched]
  rfl

theorem mem_atomTexts_iff (untouched : tree.onFalse = .unresolved) {text : String} :
    text ∈ tree.atomTexts ↔ ∃ found ∈ tree.onTrue.ends, text ∈ found.1.texts := by
  rw [← Branch.mem_texts_iff, atomTexts, List.mem_eraseDups, atoms, List.map_map]
  exact ((nodes_perm_onTrue untouched).map _).mem_iff

theorem depth_le_maxDepth {node : Branch} (member : node ∈ tree.nodes) : node.atom.depth ≤ tree.maxDepth := by
  have there : node.atom.depth ∈ tree.atoms.map Atom.depth := List.mem_map_of_mem (List.mem_map_of_mem member)
  rw [maxDepth]
  cases greatest : (tree.atoms.map Atom.depth).max? with
  | none => simp [List.max?_eq_none_iff.mp greatest] at there
  | some depth => exact (List.max?_eq_some_iff.mp greatest).2 _ there

theorem maxDepth_cases (tree : Tree) : tree.maxDepth = 0 ∨ ∃ node ∈ tree.nodes, tree.maxDepth = node.atom.depth := by
  rw [maxDepth]
  cases greatest : (tree.atoms.map Atom.depth).max? with
  | none => exact .inl rfl
  | some depth =>
      obtain ⟨atom, there, rfl⟩ := List.mem_map.mp (List.max?_eq_some_iff.mp greatest).1
      obtain ⟨node, member, rfl⟩ := List.mem_map.mp there
      exact .inr ⟨node, member, rfl⟩

theorem clauses_length (untouched : tree.onFalse = .unresolved) :
    tree.literalClauses.length + tree.nodes.countP Branch.isBoth = tree.leaves.count true := by
  rw [(nodes_perm_onTrue untouched).countP_eq, (leaves_perm_ends untouched).count_eq,
    ← Branch.clausesBelow_length tree.onTrue []]
  cases plain : tree.onTrue.isTrue with
  | false => rw [literalClauses_eq plain, Bool.toNat_false, Nat.add_zero]
  | true =>
      rw [literalClauses_isTrue plain, Branch.clausesBelow_isTrue plain, Branch.isTrue_iff.mp plain]
      rfl

theorem intercalate_ne_empty {separator : String} {clauses : List String} (some : clauses ≠ [])
    (written : "" ∉ clauses) : separator.intercalate clauses ≠ "" := by
  cases clauses with
  | nil => contradiction
  | cons first rest =>
      have first_ne : first ≠ "" := fun same => written (same ▸ List.mem_cons_self ..)
      cases rest with
      | nil => simpa using first_ne
      | cons second rest =>
          rw [String.intercalate_cons_cons]
          simp [first_ne]

theorem clause_eq_empty_iff : tree.clause = "" ↔ tree.literalClauses = [] := by
  rw [clause]
  split
  · next empty =>
      refine iff_of_false (by decide) fun none => ?_
      rw [clauses, none] at empty
      cases empty
  · next written =>
      rw [List.contains_iff_mem] at written
      constructor
      · intro empty
        by_contra some
        exact intercalate_ne_empty (fun none => some (List.map_eq_nil_iff.mp none)) written empty
      · intro none
        rw [clauses, none]
        rfl

end Tree

end Extension.Decision
