import Extension.Proofs.Decision.LevelOrder

namespace Extension.Decision

/-! The numbers that a walk gives to the nodes of a tree.

What the walk meets behind the first level is what lies right below all that it meets, in the same order.  So the
numbers of the children can be counted up from node to node, and each one is the number under which the walk comes
to that child.
-/

theorem levelsBelow_first {α : Type} {below : α → List α} {first : List α} (height : Nat) :
    levelsBelow below first (height + 1) = first ++ (levelsBelow below first height).flatMap below := by
  induction height with
  | zero => simp [levelsBelow, levelBelow]
  | succ height ih =>
      calc levelsBelow below first (height + 1 + 1)
        _ = levelsBelow below first (height + 1) ++ levelBelow below first (height + 1) := levelsBelow_succ _
        _ = first ++ (levelsBelow below first height).flatMap below ++ (levelBelow below first height).flatMap below := by
            rw [ih, levelBelow_succ]
        _ = first ++ (levelsBelow below first (height + 1)).flatMap below := by
            rw [levelsBelow_succ, List.flatMap_append, List.append_assoc]

/-- A node with the path that leads to it from the root. -/
abbrev Placed := List Bool × Branch

def Placed.below (placed : Placed) : List Placed :=
  placed.2.onTrue.here.map (placed.1 ++ [true], ·) ++ placed.2.onFalse.here.map (placed.1 ++ [false], ·)

namespace Tree

variable (tree : Tree)

def placedAt? (path : List Bool) : Option Placed :=
  (tree.nodeAt? path).map (path, ·)

def placedRoots : List Placed :=
  tree.onTrue.here.map ([true], ·) ++ tree.onFalse.here.map ([false], ·)

/-- The nodes that a walk meets, with their paths. -/
def placed : List Placed :=
  (waysBelow tree.size).filterMap tree.placedAt?

theorem placed_lead : PathsLead Placed.below tree.placedRoots tree.placedAt? where
  root := rfl
  first := by
    obtain ⟨onTrue, onFalse⟩ := tree
    cases onTrue <;> cases onFalse <;> rfl
  below path nonempty := by
    obtain ⟨answer, path, rfl⟩ := List.exists_cons_of_ne_nil nonempty
    simp only [List.cons_append, List.filterMap_cons, List.filterMap_nil, placedAt?, nodeAt?, Branch.follow_append]
    cases (Branch.side tree.onTrue tree.onFalse answer).follow path with
    | none => rfl
    | some found =>
        cases found with
        | unresolved => rfl
        | result value => rfl
        | node atom onTrue onFalse => cases onTrue <;> cases onFalse <;> rfl

theorem placed_nodes : tree.placed.map Prod.snd = tree.nodes := by
  rw [nodes_levels fun path node => tree.nodeAt?_length, tree.leads.levels, placed, List.map_filterMap]
  refine congrArg (List.filterMap · _) (funext fun path => ?_)
  rw [placedAt?, Option.map_map]
  exact Option.map_id'

theorem mem_placed {path : List Bool} {node : Branch} : (path, node) ∈ tree.placed ↔ tree.nodeAt? path = some node := by
  rw [placed, List.mem_filterMap]
  constructor
  · rintro ⟨other, _, here⟩
    obtain ⟨found, there, same⟩ := Option.map_eq_some_iff.mp here
    cases same
    exact there
  · intro here
    refine ⟨path, mem_waysBelow.mpr ⟨?_, tree.nodeAt?_length here⟩, by rw [placedAt?, here]; rfl⟩
    rintro rfl
    cases here

theorem placed_nodup : (tree.placed.map Prod.fst).Nodup := by
  have same : tree.placed.map Prod.fst = (waysBelow tree.size).filter fun path => (tree.nodeAt? path).isSome := by
    rw [placed, List.map_filterMap, ← List.filterMap_eq_filter]
    refine congrArg (List.filterMap · _) (funext fun path => ?_)
    cases here : tree.nodeAt? path <;> simp [placedAt?, here, Option.guard]
  rw [same]
  exact (waysBelow_nodup _).filter _

theorem placed_eq : tree.placed = tree.placedRoots ++ tree.placed.flatMap Placed.below := by
  have bound : ∀ path found, tree.placedAt? path = some found → path.length ≤ tree.size := by
    intro path found here
    obtain ⟨node, there, _⟩ := Option.map_eq_some_iff.mp here
    exact tree.nodeAt?_length there
  have levels : levelsBelow Placed.below tree.placedRoots tree.size = tree.placed := tree.placed_lead.levels _
  -- one level more than the tree has adds nothing
  have more : levelsBelow Placed.below tree.placedRoots (tree.size + 1) = _ := levelsBelow_succ tree.size
  rw [levelsBelow_first, tree.placed_lead.level_nil bound, List.append_nil, levels] at more
  exact more.symm

end Tree

/-- A target stands for a branch behind a path, a row for the node that is met under its number. -/
inductive Points (placed : List Placed) (path : List Bool) : Target → Branch → Prop
  | unresolved : Points placed path .unresolved .unresolved
  | result (value : Bool) : Points placed path (.result value) (.result value)
  | node {index : Nat} {atom : Atom} {onTrue onFalse : Branch}
      (here : placed[index]? = some (path, .node atom onTrue onFalse)) :
      Points placed path (.row index) (.node atom onTrue onFalse)

structure IsRowOf (placed : List Placed) (row : Row) (node : Placed) : Prop where
  atom : row.atom = node.2.atom
  onTrue : Points placed (node.1 ++ [true]) row.onTrue node.2.onTrue
  onFalse : Points placed (node.1 ++ [false]) row.onFalse node.2.onFalse

variable {placed : List Placed}

theorem target_next (branch : Branch) (next : Nat) : (branch.target next).2 = next + branch.here.length := by
  cases branch <;> rfl

theorem target_points {branch : Branch} {path : List Bool} {next : Nat}
    (numbered : ∀ found ∈ branch.here, placed[next]? = some (path, found)) :
    Points placed path (branch.target next).1 branch := by
  cases branch with
  | unresolved => exact .unresolved
  | result value => exact .result value
  | node atom onTrue onFalse => exact .node (numbered _ (List.mem_singleton_self _))

/-- The list stands in the other one from the given number on. -/
def Continues (placed : List Placed) (next : Nat) (found : List Placed) : Prop :=
  ∀ place node, found[place]? = some node → placed[next + place]? = some node

theorem Continues.append {next : Nat} {first second : List Placed}
    (continues : Continues placed next (first ++ second)) :
    Continues placed next first ∧ Continues placed (next + first.length) second := by
  constructor
  · intro place node here
    obtain ⟨inside, _⟩ := List.getElem?_eq_some_iff.mp here
    exact continues place node (by rw [List.getElem?_append_left inside, here])
  · intro place node here
    rw [Nat.add_assoc]
    refine continues _ node ?_
    rw [List.getElem?_append_right (Nat.le_add_right ..), Nat.add_sub_cancel_left, here]

theorem Continues.points {branch : Branch} {path : List Bool} {next : Nat}
    (continues : Continues placed next (branch.here.map (path, ·))) :
    Points placed path (branch.target next).1 branch := by
  refine target_points fun found member => ?_
  cases branch with
  | node => exact List.mem_singleton.mp member ▸ continues 0 _ rfl
  | _ => cases member

theorem rowsFrom_rows {nodes : List Placed} {next : Nat} (continues : Continues placed next (nodes.flatMap Placed.below)) :
    List.Forall₂ (IsRowOf placed) (rowsFrom next (nodes.map Prod.snd)) nodes := by
  induction nodes generalizing next with
  | nil => exact .nil
  | cons node nodes ih =>
      rw [List.flatMap_cons, Placed.below] at continues
      obtain ⟨own, rest⟩ := continues.append
      obtain ⟨trueSide, falseSide⟩ := own.append
      rw [List.length_append, List.length_map, List.length_map] at rest
      rw [List.length_map] at falseSide
      rw [List.map_cons, rowsFrom]
      simp only [target_next, Nat.add_assoc]
      exact .cons ⟨rfl, trueSide.points, falseSide.points⟩ (ih rest)

namespace Tree

variable (tree : Tree)

theorem continues_whole : Continues tree.placed 0 (tree.placedRoots ++ tree.placed.flatMap Placed.below) := by
  rw [← tree.placed_eq]
  intro place node here
  rwa [Nat.zero_add]

theorem continues : Continues tree.placed tree.placedRoots.length (tree.placed.flatMap Placed.below) := by
  simpa using tree.continues_whole.append.2

theorem graph_roots :
    Points tree.placed [true] tree.graph.onTrue tree.onTrue ∧
      Points tree.placed [false] tree.graph.onFalse tree.onFalse := by
  obtain ⟨trueSide, falseSide⟩ := tree.continues_whole.append.1.append
  rw [List.length_map, Nat.zero_add] at falseSide
  refine ⟨trueSide.points, ?_⟩
  have next : (tree.onTrue.target 0).2 = tree.onTrue.here.length := by rw [target_next, Nat.zero_add]
  change Points _ _ (tree.onFalse.target (tree.onTrue.target 0).2).1 _
  rw [next]
  exact falseSide.points

theorem graph_rows : List.Forall₂ (IsRowOf tree.placed) tree.graph.rows tree.placed := by
  have next : (tree.onFalse.target (tree.onTrue.target 0).2).2 = tree.placedRoots.length := by
    rw [target_next, target_next, placedRoots, List.length_append, List.length_map, List.length_map, Nat.zero_add]
  change List.Forall₂ _ (rowsFrom (tree.onFalse.target (tree.onTrue.target 0).2).2 tree.nodes) _
  rw [next, ← tree.placed_nodes]
  exact rowsFrom_rows tree.continues

end Tree

theorem forall₂_getElem? {α β : Type} {relation : α → β → Prop} {first : List α} {second : List β}
    (related : List.Forall₂ relation first second) {place : Nat} {right : β} (there : second[place]? = some right) :
    ∃ left, first[place]? = some left ∧ relation left right := by
  induction related generalizing place with
  | nil => cases there
  | cons here _ ih =>
      cases place with
      | zero =>
          cases there
          exact ⟨_, rfl, here⟩
      | succ place => exact ih there

theorem Points.unfolds {tree : Tree} {path : List Bool} {target : Target} {branch : Branch}
    (points : Points tree.placed path target branch) : tree.graph.Unfolds target branch := by
  induction branch generalizing path target with
  | unresolved =>
      cases points
      exact .unresolved
  | result value =>
      cases points
      exact .result value
  | node atom onTrue onFalse trueIH falseIH =>
      cases points with
      | node here =>
          obtain ⟨⟨_, rowTrue, rowFalse⟩, found, same, trueSide, falseSide⟩ := forall₂_getElem? tree.graph_rows here
          cases same
          exact .row found (trueIH trueSide) (falseIH falseSide)

theorem Graph.Unfolds.unfold_eq {graph : Graph} {target : Target} {branch : Branch} (unfolds : graph.Unfolds target branch)
    {height : Nat} (room : branch.size ≤ height) : graph.unfold height target = branch := by
  induction unfolds generalizing height with
  | unresolved => cases height <;> rfl
  | result value => cases height <;> rfl
  | missing missing =>
      cases height with
      | zero => rfl
      | succ height => simp only [unfold, missing]
  | row found _ _ trueIH falseIH =>
      rw [Branch.size] at room
      cases height with
      | zero => omega
      | succ height =>
          have trueSide := @trueIH height (by omega)
          have falseSide := @falseIH height (by omega)
          simp only [unfold, found, trueSide, falseSide]

/-- The table of a tree stands for the tree. -/
theorem Tree.graph_tree (tree : Tree) : tree.graph.tree = tree := by
  obtain ⟨trueSide, falseSide⟩ := tree.graph_roots
  have rows : tree.graph.rows.length = tree.size := by
    rw [tree.graph_rows.length_eq, ← List.length_map Prod.snd, tree.placed_nodes, nodes_length]
  have trueRoom : tree.onTrue.size ≤ tree.graph.rows.length := rows ▸ Nat.le_add_right ..
  have falseRoom : tree.onFalse.size ≤ tree.graph.rows.length := rows ▸ Nat.le_add_left ..
  rw [Graph.tree, trueSide.unfolds.unfold_eq trueRoom, falseSide.unfolds.unfold_eq falseRoom]

end Extension.Decision
