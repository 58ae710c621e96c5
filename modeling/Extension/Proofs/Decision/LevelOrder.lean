import Mathlib.Data.List.Nodup
import Extension.Proofs.Decision.Rows
import Extension.Proofs.Decision.Walk

namespace Extension.Decision

/-! Walks that keep a queue, level by level.

When the queue holds one level and nothing else, it holds the next level and nothing else after as many turns as the
level is long.  The paths that lead to a level are all paths of one length, in their order.
-/

section Queues

variable {α : Type}

structure Queue (α : Type) where
  waiting : List α
  met : List α

/-- Lets the first one out of the queue, and what lies right below it in. -/
def Queue.turn (below : α → List α) (queue : Queue α) : Queue α :=
  match queue.waiting with
  | [] => queue
  | first :: waiting => ⟨waiting ++ below first, queue.met ++ [first]⟩

/-- What lies so many steps below the first level, for each one of a level in order. -/
def levelBelow (below : α → List α) (first : List α) (depth : Nat) : List α :=
  (List.flatMap below)^[depth] first

def levelsBelow (below : α → List α) (first : List α) (height : Nat) : List α :=
  (List.range height).flatMap (levelBelow below first)

/-- The paths that lead one step further than the depth, true before false. -/
def ways : Nat → List (List Bool)
  | 0 => [[true], [false]]
  | depth + 1 => (ways depth).flatMap fun path => [path ++ [true], path ++ [false]]

/-- What stands at the end of each path, if there is something, and what lies right below that. -/
structure PathsLead (below : α → List α) (first : List α) (place : List Bool → Option α) : Prop where
  root : place [] = none
  first : first = [[true], [false]].filterMap place
  below : ∀ path, path ≠ [] → [path ++ [true], path ++ [false]].filterMap place = (place path).toList.flatMap below

/-- The walk ends, and has met level after level, each place at the end of a path once. -/
structure WalksByLevel (below : α → List α) (first : List α) (place : List Bool → Option α) (walked : List α) :
    Prop where
  ends : ∃ count, ∀ more, (Queue.turn below)^[count + more] ⟨first, []⟩ = ⟨[], walked⟩
  levels : ∃ height, levelBelow below first height = [] ∧ walked = levelsBelow below first height
  paths : ∃ paths : List (List Bool), paths.Nodup ∧ paths.Pairwise (·.length ≤ ·.length) ∧
    (∀ path, path ∈ paths ↔ ∃ found, place path = some found) ∧ paths.map place = walked.map some

variable {below : α → List α} {first : List α} {place : List Bool → Option α}

theorem levelBelow_succ (depth : Nat) :
    levelBelow below first (depth + 1) = (levelBelow below first depth).flatMap below :=
  Function.iterate_succ_apply' ..

theorem levelsBelow_succ (height : Nat) :
    levelsBelow below first (height + 1) = levelsBelow below first height ++ levelBelow below first height := by
  simp [levelsBelow, List.range_succ]

namespace Queue

@[simp] theorem turn_done (met : List α) : turn below ⟨[], met⟩ = ⟨[], met⟩ := rfl

theorem turns_done (met : List α) (count : Nat) : (turn below)^[count] ⟨[], met⟩ = ⟨[], met⟩ :=
  Function.iterate_fixed (turn_done met) count

/-- The front of a queue is let out, with what lies below it behind the rest. -/
theorem turns_front (below : α → List α) (front rest met : List α) :
    (turn below)^[front.length] ⟨front ++ rest, met⟩ = ⟨rest ++ front.flatMap below, met ++ front⟩ := by
  induction front generalizing rest met with
  | nil => simp
  | cons next front ih =>
      have turned : turn below ⟨next :: front ++ rest, met⟩ = ⟨front ++ (rest ++ below next), met ++ [next]⟩ := by
        simp [turn]
      rw [List.length_cons, Function.iterate_succ_apply, turned, ih]
      simp

theorem turns_levels (below : α → List α) (first : List α) (height : Nat) :
    ∃ count, (turn below)^[count] ⟨first, []⟩ =
      ⟨levelBelow below first height, levelsBelow below first height⟩ := by
  induction height with
  | zero => exact ⟨0, rfl⟩
  | succ height ih =>
      obtain ⟨count, reached⟩ := ih
      have front := turns_front below (levelBelow below first height) [] (levelsBelow below first height)
      rw [List.append_nil, List.nil_append] at front
      refine ⟨(levelBelow below first height).length + count, ?_⟩
      rw [Function.iterate_add_apply, reached, front, levelBelow_succ, levelsBelow_succ]

/-- A walk that has come to its end has met the same, whenever it is looked at. -/
theorem met_unique {queue : Queue α} {walked other : List α} {count more : Nat}
    (ended : (turn below)^[count] queue = ⟨[], walked⟩) (again : (turn below)^[more] queue = ⟨[], other⟩) :
    walked = other := by
  have same : (turn below)^[more + count] queue = (turn below)^[count + more] queue := by rw [Nat.add_comm]
  rw [Function.iterate_add_apply, ended, turns_done, Function.iterate_add_apply, again, turns_done] at same
  exact congrArg Queue.met same

end Queue

theorem mem_ways {path : List Bool} {depth : Nat} : path ∈ ways depth ↔ path.length = depth + 1 := by
  induction depth generalizing path with
  | zero =>
      constructor
      · intro member
        simp only [ways, List.mem_cons, List.not_mem_nil, or_false] at member
        rcases member with rfl | rfl <;> rfl
      · intro length
        obtain ⟨answer, rfl⟩ := List.length_eq_one_iff.mp length
        cases answer <;> simp [ways]
  | succ depth ih =>
      rw [ways, List.mem_flatMap]
      constructor
      · rintro ⟨start, member, longer⟩
        have length := ih.mp member
        simp only [List.mem_cons, List.not_mem_nil, or_false] at longer
        rcases longer with rfl | rfl <;> simp [length]
      · intro length
        rcases List.eq_nil_or_concat path with rfl | ⟨start, answer, rfl⟩
        · cases length
        · rw [List.concat_eq_append] at length ⊢
          refine ⟨start, ih.mpr (by simpa using length), ?_⟩
          cases answer <;> simp

theorem ways_nodup (depth : Nat) : (ways depth).Nodup := by
  induction depth with
  | zero => decide
  | succ depth ih =>
      refine List.nodup_flatMap.mpr ⟨fun path _ => by simp, ih.imp fun different => ?_⟩
      intro path member other
      simp only [List.mem_cons, List.not_mem_nil, or_false] at member other
      apply different
      rcases member with rfl | rfl <;> rcases other with same | same <;>
        exact (List.append_inj' same rfl).1

theorem filterMap_toList {γ : Type} (values : List α) (view : α → Option γ) (next : γ → List γ) :
    (values.filterMap view).flatMap next = values.flatMap fun value => (view value).toList.flatMap next := by
  induction values with
  | nil => rfl
  | cons value values ih => cases seen : view value <;> simp [seen, ih]

/-- What stands at the ends of some paths is at other ends the same. -/
theorem forall₂_filterMap {γ δ : Type} {relation : γ → δ → Prop} {view : α → Option γ} {other : α → Option δ}
    {values : List α} (same : ∀ value ∈ values, Option.Rel relation (view value) (other value)) :
    List.Forall₂ relation (values.filterMap view) (values.filterMap other) := by
  induction values with
  | nil => exact .nil
  | cons value values ih =>
      obtain ⟨here, below⟩ := List.forall_mem_cons.mp same
      generalize seen : view value = left at here
      generalize met : other value = right at here
      cases here with
      | none => simpa [List.filterMap_cons, seen, met] using ih below
      | some related => simpa [List.filterMap_cons, seen, met] using ⟨related, ih below⟩

theorem map_filter_isSome {γ : Type} (values : List α) (view : α → Option γ) :
    (values.filter fun value => (view value).isSome).map view = (values.filterMap view).map some := by
  induction values with
  | nil => rfl
  | cons value values ih => cases seen : view value <;> simp [seen, ih]

/-- The paths of the levels above a height. -/
def waysBelow (height : Nat) : List (List Bool) :=
  (List.range height).flatMap ways

theorem mem_waysBelow {path : List Bool} {height : Nat} :
    path ∈ waysBelow height ↔ path ≠ [] ∧ path.length ≤ height := by
  rw [waysBelow, List.mem_flatMap]
  constructor
  · rintro ⟨depth, inside, member⟩
    have length := mem_ways.mp member
    have bound := List.mem_range.mp inside
    exact ⟨List.ne_nil_of_length_pos (by omega), by omega⟩
  · rintro ⟨nonempty, bound⟩
    have positive := List.length_pos_iff.mpr nonempty
    exact ⟨path.length - 1, List.mem_range.mpr (by omega), mem_ways.mpr (by omega)⟩

theorem waysBelow_lengths (height : Nat) : (waysBelow height).Pairwise (·.length ≤ ·.length) := by
  refine List.pairwise_flatMap.mpr ⟨fun depth _ => ?_, List.pairwise_lt_range.imp fun deeper => ?_⟩
  · refine List.pairwise_of_forall_mem_list fun path member other there => ?_
    rw [mem_ways.mp member, mem_ways.mp there]
  · intro path member other there
    rw [mem_ways.mp member, mem_ways.mp there]
    omega

theorem waysBelow_nodup (height : Nat) : (waysBelow height).Nodup := by
  refine List.nodup_flatMap.mpr ⟨fun depth _ => ways_nodup depth, List.pairwise_lt_range.imp fun deeper => ?_⟩
  intro path member other
  have length := mem_ways.mp member
  have again := mem_ways.mp other
  omega

namespace PathsLead

variable (leads : PathsLead below first place)
include leads

theorem level (depth : Nat) : levelBelow below first depth = (ways depth).filterMap place := by
  induction depth with
  | zero => exact leads.first
  | succ depth ih =>
      rw [levelBelow_succ, ih, ways, List.filterMap_flatMap, filterMap_toList]
      refine List.flatMap_congr fun path member => (leads.below path ?_).symm
      exact List.ne_nil_of_length_pos (by rw [mem_ways.mp member]; exact Nat.succ_pos _)

theorem levels (height : Nat) : levelsBelow below first height = (waysBelow height).filterMap place := by
  rw [levelsBelow, waysBelow, List.filterMap_flatMap]
  exact List.flatMap_congr fun depth _ => leads.level depth

/-- What stands at the end of a path is on the first level or right below something else. -/
theorem above {path : List Bool} {found : α} (here : place path = some found) :
    found ∈ first ∨ ∃ start earlier, place start = some earlier ∧ found ∈ below earlier := by
  have own (answer : Bool) (start : List Bool) : start ++ [answer] ∈ [start ++ [true], start ++ [false]] := by
    cases answer <;> simp
  rcases List.eq_nil_or_concat path with rfl | ⟨start, answer, rfl⟩
  · cases leads.root.symm.trans here
  · rw [List.concat_eq_append] at here
    have reached : found ∈ [start ++ [true], start ++ [false]].filterMap place :=
      List.mem_filterMap.mpr ⟨_, own answer start, here⟩
    by_cases root : start = []
    · subst root
      exact .inl (leads.first ▸ reached)
    · rw [leads.below start root, List.mem_flatMap] at reached
      obtain ⟨earlier, there, member⟩ := reached
      exact .inr ⟨start, earlier, Option.mem_toList.mp there, member⟩

variable {height : Nat} (bound : ∀ path found, place path = some found → path.length ≤ height)
include bound

theorem level_nil : levelBelow below first height = [] := by
  rw [leads.level, List.filterMap_eq_nil_iff]
  intro path member
  cases found : place path with
  | none => rfl
  | some value =>
      have length := mem_ways.mp member
      have within := bound path value found
      omega

theorem walksByLevel : WalksByLevel below first place (levelsBelow below first height) where
  ends := by
    obtain ⟨count, reached⟩ := Queue.turns_levels below first height
    rw [leads.level_nil bound] at reached
    refine ⟨count, fun more => ?_⟩
    rw [Nat.add_comm, Function.iterate_add_apply, reached, Queue.turns_done]
  levels := ⟨height, leads.level_nil bound, rfl⟩
  paths := by
    refine ⟨(waysBelow height).filter fun path => (place path).isSome, (waysBelow_nodup height).filter _,
      (waysBelow_lengths height).filter _, fun path => ?_, ?_⟩
    · rw [List.mem_filter, mem_waysBelow, Option.isSome_iff_exists]
      refine and_iff_right_of_imp fun ⟨found, here⟩ => ⟨?_, bound path found here⟩
      rintro rfl
      cases leads.root.symm.trans here
    · rw [map_filter_isSome, leads.levels]

end PathsLead

end Queues

namespace Tree

/-- The node that a path leads to from the root. -/
def nodeAt? (tree : Tree) : List Bool → Option Branch
  | [] => none
  | answer :: path => ((Branch.side tree.onTrue tree.onFalse answer).follow path).filter Branch.isNode

def roots (tree : Tree) : List Branch :=
  tree.onTrue.here ++ tree.onFalse.here

end Tree

namespace Branch

theorem length_lt_size {branch node : Branch} {path : List Bool} (reached : branch.follow path = some node)
    (isNode : node.isNode = true) : path.length < branch.size := by
  induction path generalizing branch with
  | nil =>
      cases reached
      cases node with
      | node => exact Nat.succ_pos _
      | _ => cases isNode
  | cons answer path ih =>
      obtain ⟨atom, onTrue, onFalse, rfl, inside⟩ := node_of_follow_cons reached
      have deeper := ih inside
      rw [List.length_cons, size]
      cases answer with
      | true => exact Nat.succ_lt_succ (Nat.lt_of_lt_of_le deeper (Nat.le_add_right ..))
      | false => exact Nat.succ_lt_succ (Nat.lt_of_lt_of_le deeper (Nat.le_add_left ..))

end Branch

namespace Tree

variable (tree : Tree)

theorem leads : PathsLead Branch.children tree.roots tree.nodeAt? where
  root := rfl
  first := by
    obtain ⟨onTrue, onFalse⟩ := tree
    cases onTrue <;> cases onFalse <;> rfl
  below path nonempty := by
    obtain ⟨answer, path, rfl⟩ := List.exists_cons_of_ne_nil nonempty
    simp only [List.cons_append, List.filterMap_cons, List.filterMap_nil, nodeAt?, Branch.follow_append]
    cases (Branch.side tree.onTrue tree.onFalse answer).follow path with
    | none => rfl
    | some found =>
        cases found with
        | unresolved => rfl
        | result value => rfl
        | node atom onTrue onFalse => cases onTrue <;> cases onFalse <;> rfl

theorem nodeAt?_length {path : List Bool} {node : Branch} (here : tree.nodeAt? path = some node) :
    path.length ≤ tree.size := by
  cases path with
  | nil => cases here
  | cons answer path =>
      obtain ⟨reached, isNode⟩ := Option.filter_eq_some_iff.mp here
      have shorter := Branch.length_lt_size reached isNode
      rw [List.length_cons, size]
      cases answer with
      | true => exact Nat.le_trans shorter (Nat.le_add_right ..)
      | false => exact Nat.le_trans shorter (Nat.le_add_left ..)

end Tree

theorem turns_walk (queue met : List Branch) :
    ∃ count, (Queue.turn Branch.children)^[count] ⟨queue, met⟩ = ⟨[], met ++ walk queue⟩ := by
  induction queue using walk.induct generalizing met with
  | case1 => exact ⟨0, by simp [walk]⟩
  | case2 branch queue ih =>
      obtain ⟨count, reached⟩ := ih (met ++ [branch])
      refine ⟨count + 1, ?_⟩
      rw [Function.iterate_succ_apply, Queue.turn, reached, walk]
      simp

theorem Tree.nodes_levels {tree : Tree} {height : Nat}
    (bound : ∀ path node, tree.nodeAt? path = some node → path.length ≤ height) :
    tree.nodes = levelsBelow Branch.children tree.roots height := by
  obtain ⟨count, walked⟩ := turns_walk tree.roots []
  obtain ⟨more, ended⟩ := (tree.leads.walksByLevel bound).ends
  exact Queue.met_unique walked (ended 0)

theorem Tree.nodes_walk (tree : Tree) :
    WalksByLevel Branch.children tree.roots tree.nodeAt? tree.nodes := by
  have bound : ∀ path node, tree.nodeAt? path = some node → path.length ≤ tree.size := fun _ _ => tree.nodeAt?_length
  rw [nodes_levels bound]
  exact tree.leads.walksByLevel bound

namespace Graph

variable {graph : Graph} {target : Target} {branch : Branch}

/-- The number of the row that a path leads to from the root. -/
def rowAt? (graph : Graph) : List Bool → Option Nat
  | [] => none
  | answer :: path => (graph.follow (if answer then graph.onTrue else graph.onFalse) path).bind Target.index?

def roots (graph : Graph) : List Nat :=
  [graph.onTrue, graph.onFalse].filterMap Target.index?

/-- The rows form a tree, with nodes that may be shared: all of them are there, and none of them is below itself. -/
structure IsProper (graph : Graph) : Prop where
  onTrue : graph.AcyclicFrom graph.onTrue
  onFalse : graph.AcyclicFrom graph.onFalse
  closed : ∀ path index, graph.rowAt? path = some index → index < graph.rows.length

theorem follow_append (target : Target) (path more : List Bool) :
    graph.follow target (path ++ more) = (graph.follow target path).bind (graph.follow · more) := by
  induction path generalizing target with
  | nil => simp [follow]
  | cons answer path ih =>
      cases target with
      | row index => cases found : graph.rows[index]? <;> simp [follow, found, ih]
      | _ => simp [follow]

theorem leads (graph : Graph) : PathsLead graph.below graph.roots graph.rowAt? where
  root := rfl
  first := by simp [roots, rowAt?, follow, List.filterMap_cons]
  below path nonempty := by
    obtain ⟨answer, path, rfl⟩ := List.exists_cons_of_ne_nil nonempty
    simp only [List.cons_append, List.filterMap_cons, List.filterMap_nil, rowAt?, follow_append]
    cases graph.follow (if answer then graph.onTrue else graph.onFalse) path with
    | none => rfl
    | some target =>
        cases target with
        | row index =>
            have own : Target.index? (.row index) = some index := rfl
            cases found : graph.rows[index]? <;> simp [follow, found, below, own, List.filterMap_cons]
        | _ => rfl

theorem unfold_height {height : Nat} {path : List Bool} {node : Branch}
    (reached : (graph.unfold height target).follow path = some node) (isNode : node.isNode = true) :
    path.length < height := by
  induction height generalizing target path with
  | zero =>
      cases target <;> cases path <;> cases reached <;> cases isNode
  | succ height ih =>
      cases path with
      | nil => exact Nat.succ_pos _
      | cons answer path =>
          obtain ⟨atom, onTrue, onFalse, unfolded, inside⟩ := Branch.node_of_follow_cons reached
          cases target with
          | row index =>
              rw [unfold] at unfolded
              split at unfolded
              · cases unfolded
                cases answer with
                | true => exact Nat.succ_lt_succ (ih inside)
                | false => exact Nat.succ_lt_succ (ih inside)
              · cases unfolded
          | _ => cases unfolded

theorem levels_nil (height : Nat) : graph.levels height [] = [] := by
  cases height <;> rfl

theorem levels_eq (height : Nat) (first : List Nat) :
    graph.levels height first = levelsBelow graph.below first height := by
  induction height generalizing first with
  | zero => rfl
  | succ height ih =>
      have further : levelsBelow graph.below first (height + 1) =
          first ++ levelsBelow graph.below (first.flatMap graph.below) height := by
        rw [levelsBelow, List.range_succ_eq_map, List.flatMap_cons, List.flatMap_map]
        rfl
      rw [further, ← ih]
      cases first with
      | nil => rw [List.flatMap_nil, levels_nil, levels_nil, List.nil_append]
      | cons index first => simp [levels]

theorem tree_nodeAt?_length {path : List Bool} {node : Branch} (here : graph.tree.nodeAt? path = some node) :
    path.length ≤ graph.rows.length := by
  cases path with
  | nil => exact Nat.zero_le _
  | cons answer path =>
      obtain ⟨reached, isNode⟩ := Option.filter_eq_some_iff.mp here
      cases answer with
      | true => exact unfold_height reached isNode
      | false => exact unfold_height reached isNode

theorem occurrences_eq (graph : Graph) :
    graph.occurrences = levelsBelow graph.below graph.roots graph.rows.length :=
  levels_eq ..

/-- A table is proper if its rows name only rows behind them. -/
theorem isProper_of_rising (rising : ∀ index < graph.rows.length, ∀ other ∈ graph.below index, index < other)
    (closed : ∀ index ∈ graph.roots ++ (List.range graph.rows.length).flatMap graph.below, index < graph.rows.length) :
    graph.IsProper where
  onTrue := acyclicFrom_of_rising rising _
  onFalse := acyclicFrom_of_rising rising _
  closed path index here := by
    refine closed index (List.mem_append.mpr ((graph.leads.above here).imp id ?_))
    rintro ⟨start, earlier, _, member⟩
    refine List.mem_flatMap.mpr ⟨earlier, List.mem_range.mpr ?_, member⟩
    rw [below] at member
    split at member
    · next row found => exact (List.getElem?_eq_some_iff.mp found).1
    · cases member

namespace IsProper

variable (proper : graph.IsProper)
include proper

/-- What the sides of the root stand for. -/
theorem unfolds (answer : Bool) :
    graph.Unfolds (if answer then graph.onTrue else graph.onFalse)
      (Branch.side graph.tree.onTrue graph.tree.onFalse answer) := by
  cases answer with
  | true => exact proper.onTrue.unfolds
  | false => exact proper.onFalse.unfolds

/-- A path leads to a row just when it leads to a node of the tree, and to the node that the row unfolds to. -/
theorem places (path : List Bool) :
    Option.Rel (fun index => graph.Unfolds (.row index)) (graph.rowAt? path) (graph.tree.nodeAt? path) := by
  cases path with
  | nil => exact .none
  | cons answer path =>
      have unfolds := proper.unfolds answer
      cases reached : (Branch.side graph.tree.onTrue graph.tree.onFalse answer).follow path with
      | none =>
          have nowhere : graph.follow (if answer then graph.onTrue else graph.onFalse) path = none := by
            rw [Option.eq_none_iff_forall_ne_some]
            intro place leads
            obtain ⟨found, there, _⟩ := unfolds.of_follow leads
            cases reached.symm.trans there
          simp [rowAt?, nowhere, Tree.nodeAt?, reached]
      | some found =>
          obtain ⟨place, leads, same⟩ := unfolds.follow reached
          simp only [rowAt?, leads, Tree.nodeAt?, reached]
          cases same with
          | unresolved => exact .none
          | result value => exact .none
          | @missing index missing =>
              have inside := proper.closed (answer :: path) index (by rw [rowAt?, leads]; rfl)
              rw [List.getElem?_eq_none_iff] at missing
              omega
          | row found trueSide falseSide => exact .some (.row found trueSide falseSide)

theorem rowAt?_length {path : List Bool} {index : Nat} (here : graph.rowAt? path = some index) :
    path.length ≤ graph.rows.length := by
  have same := proper.places path
  rw [here] at same
  generalize there : graph.tree.nodeAt? path = node at same
  cases same with
  | some => exact tree_nodeAt?_length there

theorem occurrences_walk : WalksByLevel graph.below graph.roots graph.rowAt? graph.occurrences := by
  rw [graph.occurrences_eq]
  exact graph.leads.walksByLevel fun path index => proper.rowAt?_length

/-- The nodes of the tree are those that the rows unfold to, occurrence for occurrence. -/
theorem occurrences_nodes :
    List.Forall₂ (fun index => graph.Unfolds (.row index)) graph.occurrences graph.tree.nodes := by
  rw [graph.occurrences_eq, Tree.nodes_levels fun path node => tree_nodeAt?_length, graph.leads.levels,
    graph.tree.leads.levels]
  exact forall₂_filterMap fun path _ => proper.places path

end IsProper

end Graph

end Extension.Decision
