import Extension.Proofs.Decision.Drawing

namespace Extension.Decision

/-! Trees by the texts of their tests.

A diagram names neither the keys that tests read nor how deep they are.  All else of a tree is in the statements about
it: they tell the rows of its table one by one.
-/

open Dot

def Atom.bare (atom : Atom) : Atom :=
  { text := atom.text, depth := 0, key := "" }

/-- The tests of a branch by their texts alone. -/
def Branch.bare : Branch → Branch
  | .node atom onTrue onFalse => .node atom.bare onTrue.bare onFalse.bare
  | other => other

def Tree.bare (tree : Tree) : Tree :=
  ⟨tree.onTrue.bare, tree.onFalse.bare⟩

theorem Branch.here_bare (branch : Branch) : branch.bare.here = branch.here.map Branch.bare := by
  cases branch <;> rfl

theorem Branch.children_bare (branch : Branch) : branch.bare.children = branch.children.map Branch.bare := by
  cases branch with
  | node atom onTrue onFalse => rw [bare, children, children, here_bare, here_bare, List.map_append]
  | _ => rfl

theorem walk_bare (queue : List Branch) : walk (queue.map Branch.bare) = (walk queue).map Branch.bare := by
  induction queue using walk.induct with
  | case1 => simp [walk]
  | case2 branch queue ih =>
      rw [List.map_cons, walk, walk, List.map_cons, ← ih, List.map_append, Branch.children_bare]

namespace Tree

variable (tree : Tree)

theorem nodes_bare : tree.bare.nodes = tree.nodes.map Branch.bare := by
  rw [nodes, bare, Branch.here_bare, Branch.here_bare, ← List.map_append, walk_bare, nodes]

theorem texts_bare : tree.bare.atoms.map Atom.text = tree.atoms.map Atom.text := by
  rw [atoms, nodes_bare, atoms, List.map_map, List.map_map, List.map_map]
  refine List.map_congr_left fun node _ => ?_
  cases node <;> rfl

theorem leaves_bare : tree.bare.leaves = tree.leaves := by
  have result (branch : Branch) : branch.bare.result? = branch.result? := by cases branch <;> rfl
  have sides (node : Branch) : node.bare.onTrue = node.onTrue.bare ∧ node.bare.onFalse = node.onFalse.bare := by
    cases node <;> exact ⟨rfl, rfl⟩
  rw [leaves, nodes_bare, List.flatMap_map]
  simp only [List.filterMap_cons, List.filterMap_nil, bare, (sides _).1, (sides _).2, result]
  rfl

end Tree

def Row.bare (row : Row) : Row :=
  { row with atom := row.atom.bare }

def Row.side (row : Row) (answer : Bool) : Target :=
  if answer then row.onTrue else row.onFalse

namespace Graph

def bare (graph : Graph) : Graph :=
  { graph with rows := graph.rows.map Row.bare }

variable {graph other : Graph}

theorem unfold_bare (height : Nat) (target : Target) : graph.bare.unfold height target = (graph.unfold height target).bare := by
  induction height generalizing target with
  | zero => cases target <;> rfl
  | succ height ih =>
      cases target with
      | unresolved => rfl
      | result value => rfl
      | row index =>
          rw [unfold, unfold]
          have row : graph.bare.rows[index]? = (graph.rows[index]?).map Row.bare := List.getElem?_map
          rw [row]
          cases graph.rows[index]? with
          | none => rfl
          | some row =>
              simp only [Option.map_some, ih, Branch.bare]
              rfl

theorem tree_bare : graph.bare.tree = graph.tree.bare := by
  have rows : graph.bare.rows.length = graph.rows.length := List.length_map _
  rw [tree, rows, unfold_bare, unfold_bare]
  rfl

theorem declare_mem {index : Nat} {text : String} :
    .declare (nodeName index) text ∈ graph.statements ↔
      ∃ row, graph.rows[index]? = some row ∧ row.atom.text = text := by
  rw [statements, List.mem_append, or_iff_left]
  · rw [declarations, List.mem_map]
    constructor
    · rintro ⟨⟨row, number⟩, member, same⟩
      obtain ⟨named, told⟩ := Statement.declare.inj same
      cases nodeName_injective named
      exact ⟨row, List.mem_zipIdx_iff_getElem?.mp member, told⟩
    · rintro ⟨row, here, rfl⟩
      exact ⟨(row, index), List.mem_zipIdx_iff_getElem?.mpr here, rfl⟩
  · intro drawn
    rcases List.mem_append.mp drawn with rooted | below
    · obtain ⟨_, _, _, same⟩ := edgesFrom_mem.mp rooted
      cases same
    · obtain ⟨_, _, member⟩ := List.mem_flatMap.mp below
      obtain ⟨_, _, _, same⟩ := edgesFrom_mem.mp member
      cases same

theorem edge_cases {source : String} {outcome : Option Bool} {name : String} :
    .edge source outcome name ∈ graph.statements ↔
      (source = rootName ∧ outcome = none ∧ ∃ answer : Bool,
        targetName? nodeName (if answer then graph.onTrue else graph.onFalse) = some name) ∨
      ∃ index row answer, graph.rows[index]? = some row ∧ source = nodeName index ∧ outcome = some answer ∧
        targetName? nodeName (row.side answer) = some name := by
  rw [statements, List.mem_append, or_iff_right, edges, List.mem_append, edgesFrom_mem]
  · constructor
    · rintro (⟨answer, target, leads, same⟩ | below)
      · cases same
        refine .inl ⟨rfl, rfl, answer, ?_⟩
        cases answer <;> exact leads
      · obtain ⟨⟨row, index⟩, met, member⟩ := List.mem_flatMap.mp below
        obtain ⟨answer, target, leads, same⟩ := edgesFrom_mem.mp member
        cases same
        refine .inr ⟨index, row, answer, List.mem_zipIdx_iff_getElem?.mp met, rfl, rfl, ?_⟩
        cases answer <;> exact leads
    · rintro (⟨rfl, rfl, answer, leads⟩ | ⟨index, row, answer, here, rfl, rfl, leads⟩)
      · refine .inl ⟨answer, name, ?_, rfl⟩
        cases answer <;> exact leads
      · refine .inr (List.mem_flatMap.mpr ⟨(row, index), List.mem_zipIdx_iff_getElem?.mpr here, ?_⟩)
        refine edgesFrom_mem.mpr ⟨answer, name, ?_, rfl⟩
        cases answer <;> exact leads
  · intro declared
    obtain ⟨_, _, same⟩ := List.mem_map.mp declared
    cases same

theorem edge_mem {index : Nat} {answer : Bool} {name : String} :
    .edge (nodeName index) (some answer) name ∈ graph.statements ↔
      ∃ row, graph.rows[index]? = some row ∧ targetName? nodeName (row.side answer) = some name := by
  rw [edge_cases]
  constructor
  · rintro (⟨named, _⟩ | ⟨other, row, _, here, named, same, leads⟩)
    · exact absurd named (nodeName_ne_root _)
    · cases nodeName_injective named
      cases same
      exact ⟨row, here, leads⟩
  · rintro ⟨row, here, leads⟩
    exact .inr ⟨index, row, answer, here, rfl, rfl, leads⟩

theorem root_mem (untouched : graph.onFalse = .unresolved) {name : String} :
    .edge rootName none name ∈ graph.statements ↔ targetName? nodeName graph.onTrue = some name := by
  rw [edge_cases]
  constructor
  · rintro (⟨_, _, answer, leads⟩ | ⟨_, _, _, _, _, same, _⟩)
    · cases answer with
      | true => exact leads
      | false =>
          rw [untouched] at leads
          cases leads
    · cases same
  · intro leads
    exact .inl ⟨rfl, rfl, true, leads⟩

theorem targetName?_injective : Function.Injective (targetName? nodeName) := by
  intro target other same
  cases target with
  | unresolved =>
      cases other with
      | unresolved => rfl
      | _ => cases same
  | result value =>
      cases other with
      | unresolved => cases same
      | result second => rw [resultName_injective (Option.some.inj same)]
      | row index => exact absurd (Option.some.inj same).symm (nodeName_ne_result index value)
  | row index =>
      cases other with
      | unresolved => cases same
      | result value => exact absurd (Option.some.inj same) (nodeName_ne_result index value)
      | row number => rw [nodeName_injective (Option.some.inj same)]

theorem bare_of_statements (untouched : graph.onFalse = .unresolved) (alsoUntouched : other.onFalse = .unresolved)
    (same : graph.statements = other.statements) : graph.bare = other.bare := by
  have rooted : graph.onTrue = other.onTrue := by
    refine targetName?_injective (Option.ext fun name => ?_)
    rw [← root_mem untouched, ← root_mem alsoUntouched, same]
  -- a row is told by its declaration and by the edges from its name
  have rows (index : Nat) : (graph.rows[index]?).map Row.bare = (other.rows[index]?).map Row.bare := by
    cases here : graph.rows[index]? with
    | none =>
        cases there : other.rows[index]? with
        | none => rfl
        | some row =>
            have declared := declare_mem.mpr ⟨row, there, rfl⟩
            obtain ⟨_, found, _⟩ := declare_mem.mp (same ▸ declared)
            cases here.symm.trans found
    | some row =>
        have declared := declare_mem.mpr ⟨row, here, rfl⟩
        obtain ⟨also, there, text⟩ := declare_mem.mp (same ▸ declared)
        have sides (answer : Bool) : row.side answer = also.side answer := by
          refine targetName?_injective (Option.ext fun name => ?_)
          have drawn : .edge (nodeName index) (some answer) name ∈ graph.statements ↔ _ := edge_mem
          rw [same, edge_mem] at drawn
          simpa [here, there, eq_comm] using drawn.symm
        have onTrue : row.onTrue = also.onTrue := sides true
        have onFalse : row.onFalse = also.onFalse := sides false
        rw [there, Option.map_some, Option.map_some, Row.bare, Row.bare, Atom.bare, Atom.bare, text, onTrue, onFalse]
  have tables : graph.rows.map Row.bare = other.rows.map Row.bare := by
    apply List.ext_getElem?
    intro index
    rw [List.getElem?_map, List.getElem?_map, rows]
  rw [bare, bare, rooted, untouched, alsoUntouched, tables]

end Graph

end Extension.Decision
