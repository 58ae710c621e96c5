import Extension.Proofs.Decision.Exhaustion
import Extension.Proofs.Decision.Inventory
import Extension.Proofs.Decision.LevelOrder
import Extension.Proofs.Decision.Sharing

namespace Extension.Decision

/-! Walks over trees that passes grow.

Each cell of an arena hangs on one side of one other cell, so that the walk over the cells meets each of them once.
A test stands one step further down than the one before it, so that a walk comes to the deepest tests last.
-/

theorem max?_of_sorted {values : List Int} (sorted : values.Pairwise (· ≤ ·)) : values.max? = values.getLast? := by
  rcases List.eq_nil_or_concat values with rfl | ⟨earlier, last, rfl⟩
  · rfl
  · rw [List.concat_eq_append] at sorted ⊢
    rw [List.getLast?_concat, List.max?_eq_some_iff]
    refine ⟨List.mem_append_right _ (List.mem_singleton_self _), fun value member => ?_⟩
    rcases List.mem_append.mp member with before | here
    · exact (List.pairwise_append.mp sorted).2.2 value before last (List.mem_singleton_self _)
    · exact Int.le_of_eq (List.mem_singleton.mp here)

/-- However the outcomes of the tests go on, they lead to a result. -/
def Branch.AlwaysEnds (branch : Branch) : Prop :=
  ∀ outcomes : Nat → Bool, ∃ count value, branch.follow ((List.range count).map outcomes) = some (.result value)

theorem Branch.complete_iff_alwaysEnds {branch : Branch} : branch.Complete ↔ branch.AlwaysEnds := by
  induction branch with
  | unresolved =>
      refine iff_of_false id fun ends => ?_
      obtain ⟨count, value, reached⟩ := ends fun _ => true
      cases count with
      | zero => cases reached
      | succ count =>
          rw [List.range_succ_eq_map] at reached
          cases reached
  | result value => exact iff_of_true trivial fun _ => ⟨0, value, rfl⟩
  | node atom onTrue onFalse trueIH falseIH =>
      have sides : (Branch.node atom onTrue onFalse).AlwaysEnds ↔ ∀ answer, (side onTrue onFalse answer).AlwaysEnds := by
        constructor
        · intro ends answer outcomes
          obtain ⟨count, value, reached⟩ := ends fun step => if step = 0 then answer else outcomes (step - 1)
          cases count with
          | zero => cases reached
          | succ count =>
              rw [List.range_succ_eq_map, List.map_cons, List.map_map, follow_node] at reached
              exact ⟨count, value, reached⟩
        · intro ends outcomes
          obtain ⟨count, value, reached⟩ := ends (outcomes 0) fun step => outcomes (step + 1)
          refine ⟨count + 1, value, ?_⟩
          rw [List.range_succ_eq_map, List.map_cons, List.map_map, follow_node]
          exact reached
      rw [Complete, trueIH, falseIH, sides, Bool.forall_bool, and_comm]
      rfl

namespace Tree

/-- What a walk over a tree that passes have grown comes to, whether the tree is finished or not. -/
structure IsGrown (tree : Tree) : Prop where
  deeper : (tree.atoms.map Atom.depth).Pairwise (· ≤ ·)
  deepest : tree.maxDepth = (tree.atoms.getLast?.map Atom.depth).getD 0
  resolved : tree.isResolved = true ↔ tree.onTrue.AlwaysEnds
  leaves : tree.isResolved = true → tree.leaves.length = tree.nodes.length + 1

/-- The false side of the root is left alone, and each test is as deep as it says. -/
structure IsPlanted (tree : Tree) : Prop where
  untouched : tree.onFalse = .unresolved
  depths : ∀ path node, tree.nodeAt? path = some node → node.atom.depth = path.length

theorem IsPlanted.isGrown {tree : Tree} (planted : tree.IsPlanted) : tree.IsGrown := by
  have sorted : (tree.atoms.map Atom.depth).Pairwise (· ≤ ·) := by
    obtain ⟨paths, _, longer, reach, nodes⟩ := tree.nodes_walk.paths
    have numbered : tree.atoms.map Atom.depth = paths.map fun path => (path.length : Int) := by
      have placed : tree.nodes.map some = paths.map tree.nodeAt? := nodes.symm
      have read := congrArg (List.map fun node? : Option Branch => node?.elim (0 : Int) fun node => node.atom.depth) placed
      rw [List.map_map, List.map_map] at read
      rw [atoms, List.map_map]
      refine Eq.trans read (List.map_congr_left fun path member => ?_)
      obtain ⟨node, here⟩ := (reach path).mp member
      rw [Function.comp_apply, here]
      exact planted.depths path node here
    rw [numbered]
    exact List.pairwise_map.mpr (longer.imp Int.ofNat_le.mpr)
  refine ⟨sorted, ?_, ?_, fun resolved => ?_⟩
  · rw [maxDepth, max?_of_sorted sorted, List.getLast?_map]
  · rw [isResolved_iff planted.untouched, Branch.complete_iff_alwaysEnds]
  · have total := leaves_length planted.untouched ((isResolved_iff planted.untouched).mp resolved)
    rwa [atoms, List.length_map] at total

end Tree

theorem Accounted.isPlanted {capacity : Nat} {exploration : Exploration} (accounted : Accounted capacity exploration) :
    exploration.tree.IsPlanted := by
  refine ⟨accounted.untouched, fun path node here => ?_⟩
  cases path with
  | nil => cases here
  | cons answer path =>
      obtain ⟨reached, isNode⟩ := Option.filter_eq_some_iff.mp here
      cases answer with
      | false =>
          rw [accounted.untouched] at reached
          cases path with
          | nil =>
              cases reached
              cases isNode
          | cons => cases reached
      | true =>
          cases node with
          | node atom onTrue onFalse =>
              have depth := accounted.numbered.depth_at reached
              rwa [Nat.zero_add] at depth
          | _ => cases isNode

def Link.target : Link → Target
  | .unresolved => .unresolved
  | .result value => .result value
  | .node number => .row number

theorem Link.index?_target {link : Link} {number : Nat} :
    Graph.Target.index? link.target = some number ↔ link = .node number := by
  cases link <;> simp [target, Graph.Target.index?]

namespace Arena

/-- The cells as a table of rows. -/
def graph (arena : Arena) : Graph where
  onTrue := (arena.link 0 true).target
  onFalse := (arena.link 0 false).target
  rows := arena.cells.map fun cell => ⟨cell.atom, cell.onTrue.target, cell.onFalse.target⟩

variable {arena : Arena} {shared : Shared} {number : Nat} {answer : Bool} {path : List Bool}

theorem graph_row (inside : number < arena.cells.length) :
    arena.graph.rows[number]? =
      some ⟨arena.atom number, (arena.link number true).target, (arena.link number false).target⟩ := by
  simp [graph, atom, link, cell, inside, Cell.side]

namespace Rooted

variable (rooted : arena.Rooted)
include rooted

theorem rising (index : Nat) (inside : index < arena.graph.rows.length) :
    ∀ other ∈ arena.graph.below index, index < other := by
  rw [graph, List.length_map] at inside
  intro other member
  rw [Graph.below, graph_row inside] at member
  obtain ⟨target, sides, named⟩ := List.mem_filterMap.mp member
  simp only [List.mem_cons, List.not_mem_nil, or_false] at sides
  rcases sides with rfl | rfl
  · exact (rooted.child (Link.index?_target.mp named)).1
  · exact (rooted.child (Link.index?_target.mp named)).1

/-- A path leads to what is linked where it has its place. -/
theorem follow_iff {target : Target} :
    arena.graph.follow arena.graph.onTrue path = some target ↔
      ∃ number answer, arena.Place path number answer ∧ target = (arena.link number answer).target := by
  constructor
  · intro leads
    -- from the end of the path, since its last answer is given in the cell that the rest leads to
    induction path using List.reverseRecOn generalizing target with
    | nil =>
        rw [Graph.follow] at leads
        exact ⟨0, true, .start, (Option.some.inj leads).symm⟩
    | append_singleton path next ih =>
        rw [Graph.follow_append, Option.bind_eq_some_iff] at leads
        obtain ⟨middle, before, last⟩ := leads
        obtain ⟨number, answer, place, rfl⟩ := ih before
        cases linked : arena.link number answer with
        | node following =>
            rw [linked, Link.target, Graph.follow, graph_row (rooted.child linked).2.1, Option.bind_some,
              Graph.follow] at last
            refine ⟨following, next, .behind place linked next, ?_⟩
            cases next with
            | true => exact (Option.some.inj last).symm
            | false => exact (Option.some.inj last).symm
        | _ =>
            rw [linked, Link.target, Graph.follow] at last
            · cases last
            · intro _ same
              cases same
  · rintro ⟨number, answer, place, rfl⟩
    induction place with
    | start => rw [Graph.follow]; rfl
    | behind place linked next ih =>
        rw [Graph.follow_append, ih, Option.bind_some, linked, Link.target, Graph.follow,
          graph_row (rooted.child linked).2.1, Option.bind_some, Graph.follow]
        cases next <;> rfl

theorem rowAt?_iff :
    arena.graph.rowAt? path = some number ↔
      ∃ start above answer, path = true :: start ∧ arena.Place start above answer ∧
        arena.link above answer = .node number := by
  cases path with
  | nil => simp [Graph.rowAt?]
  | cons first path =>
      cases first with
      | true =>
          rw [Graph.rowAt?, if_pos rfl, Option.bind_eq_some_iff]
          constructor
          · rintro ⟨target, leads, named⟩
            obtain ⟨above, answer, place, rfl⟩ := rooted.follow_iff.mp leads
            exact ⟨path, above, answer, rfl, place, Link.index?_target.mp named⟩
          · rintro ⟨_, above, answer, same, place, linked⟩
            cases same
            exact ⟨_, rooted.follow_iff.mpr ⟨above, answer, place, rfl⟩, Link.index?_target.mpr linked⟩
      | false =>
          have opened : arena.graph.onFalse = .unresolved := congrArg Link.target rooted.untouched
          rw [Graph.rowAt?, if_neg Bool.false_ne_true, opened]
          cases path <;> simp [Graph.follow, Graph.Target.index?]

theorem isProper : arena.graph.IsProper where
  onTrue := Graph.acyclicFrom_of_rising rooted.rising _
  onFalse := Graph.acyclicFrom_of_rising rooted.rising _
  closed path index here := by
    obtain ⟨_, _, _, _, _, linked⟩ := rooted.rowAt?_iff.mp here
    rw [graph, List.length_map]
    exact (rooted.child linked).2.1

/-- Every cell is somewhere in the tree. -/
theorem placed (number : Nat) (inside : number < arena.cells.length) (answer : Bool)
    (first : number = 0 → answer = true) : ∃ path, arena.Place path number answer := by
  -- a cell hangs on one that was there before
  induction number using Nat.strong_induction_on generalizing answer with
  | _ number ih =>
      rcases Nat.eq_zero_or_pos number with rfl | positive
      · rw [first rfl]
        exact ⟨[], .start⟩
      · obtain ⟨above, side, linked⟩ := rooted.parent number positive inside
        obtain ⟨earlier, _, _⟩ := rooted.child linked
        have first : above = 0 → side = true := by
          rintro rfl
          cases side with
          | true => rfl
          | false => cases rooted.untouched.symm.trans linked
        obtain ⟨path, place⟩ := ih above earlier (Nat.lt_trans earlier inside) side first
        exact ⟨path ++ [answer], .behind place linked answer⟩

theorem depth_of_rowAt? (here : arena.graph.rowAt? path = some number) :
    (arena.atom number).depth = path.length := by
  obtain ⟨start, above, answer, rfl, place, linked⟩ := rooted.rowAt?_iff.mp here
  rw [(place.behind linked true).depth rooted, List.length_append]
  rfl

/-- The walk over the cells meets each of them once, but for the root. -/
theorem occurrences_perm : arena.graph.occurrences.Perm (List.range' 1 (arena.cells.length - 1)) := by
  obtain ⟨paths, distinct, _, reach, places⟩ := rooted.isProper.occurrences_walk.paths
  have once : arena.graph.occurrences.Nodup := by
    have different : (paths.map arena.graph.rowAt?).Nodup := by
      refine distinct.map_on fun path member other there same => ?_
      obtain ⟨index, here⟩ := (reach path).mp member
      obtain ⟨_, _, _, rfl, place, linked⟩ := rooted.rowAt?_iff.mp here
      obtain ⟨_, _, _, rfl, again, also⟩ := rooted.rowAt?_iff.mp (same.symm.trans here)
      have unique := (place.behind linked true).injective rooted (again.behind also true)
      rw [(List.append_inj' unique rfl).1]
    rw [places] at different
    exact different.of_map _
  refine (List.perm_ext_iff_of_nodup once List.nodup_range').mpr fun index => ?_
  have met : index ∈ arena.graph.occurrences ↔ ∃ path, arena.graph.rowAt? path = some index := by
    have listed : index ∈ arena.graph.occurrences ↔ some index ∈ arena.graph.occurrences.map some := by simp
    rw [listed, ← places, List.mem_map]
    exact ⟨fun ⟨path, _, here⟩ => ⟨path, here⟩, fun ⟨path, here⟩ => ⟨path, (reach path).mpr ⟨index, here⟩, here⟩⟩
  rw [met, List.mem_range'_1]
  constructor
  · rintro ⟨path, here⟩
    obtain ⟨_, _, _, _, _, linked⟩ := rooted.rowAt?_iff.mp here
    have child := rooted.child linked
    omega
  · rintro ⟨positive, bound⟩
    obtain ⟨above, side, linked⟩ := rooted.parent index positive (by omega)
    obtain ⟨path, place⟩ := rooted.placed index (by omega) true fun _ => rfl
    cases place with
    | start => cases positive
    | behind place linked => exact ⟨_, rooted.rowAt?_iff.mpr ⟨_, _, _, rfl, place, linked⟩⟩

end Rooted

/-- The cells are a table of the tree that passes run on. -/
theorem Carries.graph_tree (carries : arena.Carries shared) : arena.graph.tree = shared.tree := by
  have rooted := carries.rooted
  have unfolds := rooted.isProper.onTrue.unfolds
  have opened : arena.graph.tree.onFalse = .unresolved := by
    have target : arena.graph.onFalse = .unresolved := congrArg Link.target rooted.untouched
    rw [Graph.tree, target]
    cases arena.graph.rows.length <;> rfl
  refine Tree.ext_marked (opened.trans carries.represents.untouched.symm) fun path => Option.ext fun mark => ?_
  rw [carries.represents.marked_iff]
  have shown {number : Nat} {answer : Bool} {found : Branch}
      (same : arena.graph.Unfolds (arena.link number answer).target found) :
      found.mark? = arena.mark? (arena.link number answer) := by
    cases linked : arena.link number answer with
    | node following =>
        rw [linked, Link.target] at same
        have row := graph_row (rooted.child linked).2.1
        cases same with
        | missing missing => cases row.symm.trans missing
        | row found =>
            cases row.symm.trans found
            rfl
    | _ =>
        rw [linked] at same
        cases same
        rfl
  constructor
  · intro here
    obtain ⟨found, reached, marked⟩ := Option.bind_eq_some_iff.mp here
    obtain ⟨target, leads, same⟩ := unfolds.follow reached
    obtain ⟨number, answer, place, rfl⟩ := rooted.follow_iff.mp leads
    exact ⟨number, answer, place, (shown same).symm.trans marked⟩
  · rintro ⟨number, answer, place, marked⟩
    obtain ⟨found, reached, same⟩ := unfolds.of_follow (rooted.follow_iff.mpr ⟨number, answer, place, rfl⟩)
    exact Option.bind_eq_some_iff.mpr ⟨found, reached, (shown same).trans marked⟩

theorem Carries.isPlanted (carries : arena.Carries shared) : shared.tree.IsPlanted := by
  have rooted := carries.rooted
  refine ⟨carries.represents.untouched, fun path node here => ?_⟩
  have same := rooted.isProper.places path
  rw [carries.graph_tree, here] at same
  generalize there : arena.graph.rowAt? path = index? at same
  cases same with
  | @some index _ unfolds =>
      obtain ⟨_, _, _, _, _, linked⟩ := rooted.rowAt?_iff.mp there
      have row := graph_row (rooted.child linked).2.1
      cases unfolds with
      | missing missing => cases row.symm.trans missing
      | row found =>
          cases row.symm.trans found
          exact rooted.depth_of_rowAt? there

end Arena

/-- A walk meets the nodes of a tree level by level, one for each path from the root, also where nodes are shared.  In
trees that passes grow, however far they have come, it meets each node once, and the deepest one last. -/
theorem nodes_level_by_level :
    (∀ tree : Tree, WalksByLevel Branch.children tree.roots tree.nodeAt? tree.nodes) ∧
    (∀ graph : Graph, graph.IsProper →
      WalksByLevel graph.below graph.roots graph.rowAt? graph.occurrences ∧
      List.Forall₂ (fun index => graph.Unfolds (.row index)) graph.occurrences graph.tree.nodes) ∧
    (∀ operations, (Arena.after {} operations).graph.IsProper ∧
      (Arena.after {} operations).graph.tree = (Shared.after {} operations).tree ∧
      (Arena.after {} operations).graph.occurrences.Perm
        (List.range' 1 ((Arena.after {} operations).cells.length - 1)) ∧
      List.Forall₂ (fun number => (Arena.after {} operations).graph.Unfolds (.row number))
        (Arena.after {} operations).graph.occurrences (Shared.after {} operations).tree.nodes ∧
      (Shared.after {} operations).tree.IsGrown) ∧
    ∀ {σ : Type} (step : σ → Move σ) (start : List PassRecord → σ) (capacity : Nat) (exploration : Exploration),
      Reachable step start capacity exploration → exploration.tree.IsGrown := by
  refine ⟨Tree.nodes_walk, fun graph proper => ⟨proper.occurrences_walk, proper.occurrences_nodes⟩,
    fun operations => ?_, fun step start capacity exploration reachable => reachable.sound.toAccounted.isPlanted.isGrown⟩
  obtain ⟨carries, _⟩ := Arena.carries_empty.after operations
  have proper := carries.rooted.isProper
  have nodes := proper.occurrences_nodes
  rw [carries.graph_tree] at nodes
  exact ⟨proper, carries.graph_tree, carries.rooted.occurrences_perm, nodes, carries.isPlanted.isGrown⟩

theorem sharing_level_by_level :
    sharing.IsProper ∧
    (∃ count, (Queue.turn sharing.below)^[count] ⟨[0], []⟩ = ⟨[], [0, 2, 1, 3, 2, 3]⟩) ∧
    (Arena.after {} crossingOperations).graph.occurrences.Perm [1] ∧
    (Shared.after {} crossingOperations).tree.IsGrown ∧
    (exploreFrom Script.move (callAfter (.any [keyRule "a", keyRule "b"])) 2).tree.IsGrown := by
  obtain ⟨_, tables, operations, explored⟩ := nodes_level_by_level
  have proper : sharing.IsProper := Graph.isProper_of_rising (by decide) (by decide)
  obtain ⟨count, walked⟩ := (tables sharing proper).1.ends
  obtain ⟨_, _, once, _, grown⟩ := operations crossingOperations
  exact ⟨proper, ⟨count, walked 0⟩, once, grown, explored _ _ _ _ (exploreFrom_reachable ..)⟩

end Extension.Decision
