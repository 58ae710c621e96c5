import Extension.Proofs.Decision.Texts

namespace Extension.Decision

/-! Diagrams are read back.

The lines of a diagram are those of the statements about the tree, each on its own line, so that two trees with one
diagram have the same statements.
-/

open Dot

namespace Tree

variable {tree : Tree} {path other : List Bool}

/-- The root or a node is at the end of the path. -/
def IsPlace (tree : Tree) (path : List Bool) : Prop :=
  path = [] ∨ ∃ node, tree.nodeAt? path = some node

theorem mem_places : path ∈ tree.places ↔ ∃ node, tree.nodeAt? path = some node := by
  simp [places, mem_placed]

theorem placeName_injective (here : tree.IsPlace path) (same : tree.placeName path = tree.placeName other) : path = other := by
  rw [placeName, placeName] at same
  split at same
  · next root =>
      split at same
      · next also => rw [root, also]
      · exact absurd same.symm (nodeName_ne_root _)
  · next below =>
      split at same
      · exact absurd same (nodeName_ne_root _)
      · next alsoBelow =>
          have listed := mem_places.mpr (here.resolve_left below)
          exact (List.idxOf_inj listed).mp (nodeName_injective same)

theorem placeName_isName (path : List Bool) : IsName (tree.placeName path) := by
  rw [placeName]
  split
  · exact rootName_isName
  · exact nodeName_isName _

theorem names : tree.placed.map (fun node => tree.placeName node.1) = (List.range tree.nodes.length).map nodeName := by
  apply List.ext_getElem?
  intro index
  rw [List.getElem?_map, List.getElem?_map, ← tree.placed_nodes, List.length_map]
  cases here : tree.placed[index]? with
  | none =>
      have beyond := List.getElem?_eq_none_iff.mp here
      rw [List.getElem?_eq_none (by simpa using beyond)]
      rfl
  | some node =>
      obtain ⟨inside, _⟩ := List.getElem?_eq_some_iff.mp here
      rw [List.getElem?_range inside]
      exact congrArg some (placeName_eq here)

theorem branchAt?_append (path : List Bool) (answer : Bool) :
    tree.branchAt? (path ++ [answer]) =
      if path = [] then some (Branch.side tree.onTrue tree.onFalse answer)
      else (tree.nodeAt? path).map fun node => Branch.side node.onTrue node.onFalse answer := by
  cases path with
  | nil => rfl
  | cons first path =>
      rw [List.cons_append, branchAt?, Branch.follow_append, if_neg (List.cons_ne_nil _ _), nodeAt?]
      cases (Branch.side tree.onTrue tree.onFalse first).follow path with
      | none => rfl
      | some found =>
          cases found with
          | node atom onTrue onFalse => cases answer <;> rfl
          | _ => rfl

theorem edgesAt_mem {onTrue onFalse : Branch} {statement : Statement} :
    statement ∈ tree.edgesAt path onTrue onFalse ↔
      ∃ answer target, tree.sideName? (path ++ [answer]) (Branch.side onTrue onFalse answer) = some target ∧
        statement = .edge (tree.placeName path) (if path = [] then none else some answer) target := by
  rw [edgesAt, edgesFrom_mem]
  simp [Branch.side]

theorem edge_mem {statement : Statement} :
    statement ∈ tree.edges ↔
      ∃ path answer branch target, tree.branchAt? (path ++ [answer]) = some branch ∧
        tree.sideName? (path ++ [answer]) branch = some target ∧
        statement = .edge (tree.placeName path) (if path = [] then none else some answer) target := by
  rw [edges, List.mem_append, edgesAt_mem, List.mem_flatMap]
  constructor
  · rintro (⟨answer, target, named, same⟩ | ⟨⟨path, node⟩, met, member⟩)
    · exact ⟨[], answer, _, target, branchAt?_append [] answer, named, same⟩
    · obtain ⟨answer, target, named, same⟩ := edgesAt_mem.mp member
      refine ⟨path, answer, _, target, ?_, named, same⟩
      rw [branchAt?_append, if_neg (placed_ne_nil met), tree.mem_placed.mp met]
      rfl
  · rintro ⟨path, answer, branch, target, here, named, same⟩
    rw [branchAt?_append] at here
    split at here
    · next root =>
        subst root
        cases here
        exact .inl ⟨answer, target, named, same⟩
    · obtain ⟨node, there, rfl⟩ := Option.map_eq_some_iff.mp here
      exact .inr ⟨(path, node), tree.mem_placed.mpr there, edgesAt_mem.mpr ⟨answer, target, named, same⟩⟩

theorem declaration_mem {statement : Statement} :
    statement ∈ tree.declarations ↔
      ∃ path node, tree.nodeAt? path = some node ∧ statement = .declare (tree.placeName path) node.atom.text := by
  simp [declarations, mem_placed, eq_comm]

/-- No edge is drawn twice. -/
theorem edges_nodup (untouched : tree.onFalse = .unresolved) : tree.edges.Nodup := by
  -- the edges from one place differ in their outcomes, but for the root, which has only one
  have own (path : List Bool) (below : path ≠ []) (onTrue onFalse : Branch) : (tree.edgesAt path onTrue onFalse).Nodup := by
    cases onTrue <;> cases onFalse <;> simp [edgesAt, edgesFrom, sideName?, below]
  have rooted : (tree.edgesAt [] tree.onTrue tree.onFalse).Nodup := by
    rw [untouched]
    cases tree.onTrue <;> simp [edgesAt, edgesFrom, sideName?]
  -- those from two places differ in where they start
  have apart {path other : List Bool} {onTrue onFalse otherTrue otherFalse : Branch} (here : tree.IsPlace path)
      (different : path ≠ other) :
      (tree.edgesAt path onTrue onFalse).Disjoint (tree.edgesAt other otherTrue otherFalse) := by
    intro statement member also
    obtain ⟨_, _, _, rfl⟩ := edgesAt_mem.mp member
    obtain ⟨_, _, _, same⟩ := edgesAt_mem.mp also
    exact different (placeName_injective here (Statement.edge.inj same).1)
  rw [edges, List.nodup_append']
  refine ⟨rooted, List.nodup_flatMap.mpr ⟨fun node met => own node.1 (placed_ne_nil met) _ _, ?_⟩, ?_⟩
  · have different : tree.placed.Pairwise fun node other => node.1 ≠ other.1 := List.pairwise_map.mp places_nodup
    exact different.imp_of_mem fun {node other} member _ => apart (.inr ⟨node.2, tree.mem_placed.mp member⟩)
  · intro statement member also
    obtain ⟨⟨path, node⟩, met, inside⟩ := List.mem_flatMap.mp also
    exact apart (.inl rfl) (placed_ne_nil met).symm member inside

theorem edgesAt_length (onTrue onFalse : Branch) :
    (tree.edgesAt path onTrue onFalse).length = [onTrue, onFalse].countP Branch.isResolved := by
  cases onTrue <;> cases onFalse <;> rfl

/-- How many sides are resolved, those of the root included. -/
def resolvedSides (tree : Tree) : Nat :=
  ([tree.onTrue, tree.onFalse] ++ tree.nodes.flatMap fun node => [node.onTrue, node.onFalse]).countP Branch.isResolved

theorem edges_length : tree.edges.length = tree.resolvedSides := by
  have sides : (tree.placed.flatMap fun node => tree.edgesAt node.1 node.2.onTrue node.2.onFalse).length =
      (tree.nodes.flatMap fun node => [node.onTrue, node.onFalse]).countP Branch.isResolved := by
    rw [List.length_flatMap, List.countP_flatMap, ← placed_nodes, List.map_map]
    exact congrArg List.sum (List.map_congr_left fun node _ => edgesAt_length _ _)
  rw [edges, List.length_append, edgesAt_length, sides, resolvedSides, List.countP_append]

theorem statements_length : tree.statements.length = tree.nodes.length + tree.resolvedSides := by
  rw [statements, List.length_append, edges_length, declarations, List.length_map, ← placed_nodes, List.length_map]

theorem statements_named {statement : Statement} (member : statement ∈ tree.statements) : statement.IsNamed := by
  rcases List.mem_append.mp member with declared | drawn
  · obtain ⟨path, node, _, rfl⟩ := declaration_mem.mp declared
    exact placeName_isName path
  · obtain ⟨path, answer, branch, target, _, named, rfl⟩ := edge_mem.mp drawn
    refine ⟨placeName_isName path, ?_⟩
    cases branch with
    | unresolved => cases named
    | result value =>
        cases named
        exact resultName_isName value
    | node => exact Option.some.inj named ▸ placeName_isName _

end Tree

namespace Dot

/-- Reads a diagram line by line. -/
def readDiagram (text : String) : List Statement :=
  (text.toList.splitOn '\n').filterMap readLine

end Dot

namespace Tree

variable {tree : Tree} (planted : tree.IsPlanted)
include planted

theorem IsPlanted.dot_lines : (tree.dot .simple).toList.splitOn '\n' =
    (header ++ tree.statements.map Statement.line ++ ["\x7d"]).map String.toList := by
  rw [planted.dot_eq, String.toList_intercalate]
  refine List.splitOn_intercalate _ ?_ (by simp)
  intro line member
  obtain ⟨text, listed, rfl⟩ := List.mem_map.mp member
  rcases List.mem_append.mp listed with front | last
  · rcases List.mem_append.mp front with fixed | own
    · have single : ∀ text ∈ header, '\n' ∉ text.toList := by decide
      exact single text fixed
    · obtain ⟨statement, there, rfl⟩ := List.mem_map.mp own
      exact line_single (statements_named there)
  · cases List.mem_singleton.mp last
    decide

theorem IsPlanted.read_dot : readDiagram (tree.dot .simple) = tree.statements := by
  rw [readDiagram, planted.dot_lines, List.map_append, List.map_append, List.filterMap_append, List.filterMap_append]
  have front : (header.map String.toList).filterMap readLine = [] := by decide
  have last : (["\x7d"].map String.toList).filterMap readLine = [] := by decide
  have own : ((tree.statements.map Statement.line).map String.toList).filterMap readLine = tree.statements := by
    rw [List.filterMap_map, List.filterMap_map]
    refine Eq.trans (List.filterMap_congr fun statement member => ?_) List.filterMap_some
    exact readLine_line (statements_named member)
  rw [front, last, own, List.nil_append, List.append_nil]

end Tree

namespace Dot

def Statement.declared? : Statement → Option String
  | .declare name _ => some name
  | .edge _ _ _ => none

end Dot

namespace Tree

/-- What a text shows of a tree, line by line. -/
structure IsDrawing (tree : Tree) (text : String) : Prop where
  lines : text.toList.splitOn '\n' = (header ++ tree.statements.map Statement.line ++ ["\x7d"]).map String.toList
  length : (text.toList.splitOn '\n').length = 7 + tree.nodes.length + tree.resolvedSides
  readBack : readDiagram text = tree.statements
  once : (readDiagram text).Nodup
  declared : (readDiagram text).filterMap Statement.declared? = (List.range tree.nodes.length).map nodeName
  numbered : ∀ path node, tree.nodeAt? path = some node →
    ∃ index : Nat, tree.nodes[index]? = some node ∧ tree.placeName path = nodeName index
  distinct : ∀ path other, tree.IsPlace path → tree.IsPlace other →
    tree.placeName path = tree.placeName other → path = other
  texts : ∀ name told, .declare name told ∈ readDiagram text ↔
    ∃ path node, tree.nodeAt? path = some node ∧ name = tree.placeName path ∧ told = node.atom.text
  edges : ∀ source outcome target, .edge source outcome target ∈ readDiagram text ↔
    ∃ path answer branch, tree.branchAt? (path ++ [answer]) = some branch ∧ source = tree.placeName path ∧
      (outcome = if path = [] then none else some answer) ∧ tree.sideName? (path ++ [answer]) branch = some target

variable {tree other : Tree}

theorem declarations_nodup : tree.declarations.Nodup := by
  have told : tree.declarations.map Statement.declared? = ((List.range tree.nodes.length).map nodeName).map some := by
    rw [← names, declarations, List.map_map, List.map_map]
    rfl
  refine List.Nodup.of_map Statement.declared? ?_
  rw [told]
  exact (List.nodup_range.map nodeName_injective).map fun _ _ => Option.some.inj

theorem statements_nodup (untouched : tree.onFalse = .unresolved) : tree.statements.Nodup := by
  refine List.nodup_append'.mpr ⟨declarations_nodup, edges_nodup untouched, fun statement declared drawn => ?_⟩
  obtain ⟨_, _, _, rfl⟩ := declaration_mem.mp declared
  obtain ⟨_, _, _, _, _, _, same⟩ := edge_mem.mp drawn
  cases same

theorem declared_statements : tree.statements.filterMap Statement.declared? = (List.range tree.nodes.length).map nodeName := by
  have drawn : tree.edges.filterMap Statement.declared? = [] := by
    refine List.filterMap_eq_nil_iff.mpr fun statement member => ?_
    obtain ⟨_, _, _, _, _, _, rfl⟩ := edge_mem.mp member
    rfl
  rw [statements, List.filterMap_append, drawn, List.append_nil, declarations, List.filterMap_map, ← names,
    ← List.filterMap_eq_map]
  rfl

theorem numbered {path : List Bool} {node : Branch} (here : tree.nodeAt? path = some node) :
    ∃ index : Nat, tree.nodes[index]? = some node ∧ tree.placeName path = nodeName index := by
  obtain ⟨index, met⟩ := List.mem_iff_getElem?.mp (tree.mem_placed.mpr here)
  refine ⟨index, ?_, placeName_eq met⟩
  rw [← placed_nodes, List.getElem?_map, met]
  rfl

theorem IsPlanted.isDrawing (planted : tree.IsPlanted) : tree.IsDrawing (tree.dot .simple) where
  lines := planted.dot_lines
  length := by
    rw [planted.dot_lines]
    simp [statements_length, header]
    omega
  readBack := planted.read_dot
  once := planted.read_dot ▸ statements_nodup planted.untouched
  declared := planted.read_dot ▸ declared_statements
  numbered _ _ := numbered
  distinct _ _ here _ := placeName_injective here
  texts name text := by
    rw [planted.read_dot, statements, List.mem_append, declaration_mem, or_iff_left]
    · simp only [Statement.declare.injEq]
    · intro drawn
      obtain ⟨_, _, _, _, _, _, same⟩ := edge_mem.mp drawn
      cases same
  edges source outcome target := by
    rw [planted.read_dot, statements, List.mem_append, or_iff_right, edge_mem]
    · constructor
      · rintro ⟨path, answer, branch, _, here, named, same⟩
        obtain ⟨rfl, rfl, rfl⟩ := Statement.edge.inj same
        exact ⟨path, answer, branch, here, rfl, rfl, named⟩
      · rintro ⟨path, answer, branch, here, rfl, rfl, named⟩
        exact ⟨path, answer, branch, target, here, named, rfl⟩
    · intro declared
      obtain ⟨_, _, _, same⟩ := declaration_mem.mp declared
      cases same

theorem IsPlanted.bare_of_dot (planted : tree.IsPlanted) (also : other.IsPlanted)
    (same : tree.dot .simple = other.dot .simple) : tree.bare = other.bare := by
  have statements : tree.graph.statements = other.graph.statements := by
    rw [graph_statements, graph_statements, ← planted.read_dot, same, also.read_dot]
  have untouched {tree : Tree} (planted : tree.IsPlanted) : tree.graph.onFalse = .unresolved := by
    have target : tree.graph.onFalse = (tree.onFalse.target (tree.onTrue.target 0).2).1 := rfl
    rw [target, planted.untouched]
    rfl
  have tables := Graph.bare_of_statements (untouched planted) (untouched also) statements
  rw [← tree.graph_tree, ← Graph.tree_bare, tables, Graph.tree_bare, other.graph_tree]

end Tree

/-- Diagrams of trees that passes grow say what the trees are: each line can be read back, and whatever texts the tests
have, trees with the same diagram differ at most in the keys and depths of their tests. -/
theorem diagrams_faithful :
    (∀ tree : Tree, tree.IsPlanted → tree.IsDrawing (tree.dot .simple)) ∧
    (∀ tree other : Tree, tree.IsPlanted → other.IsPlanted → tree.dot .simple = other.dot .simple →
      tree.bare = other.bare ∧ tree.leaves = other.leaves ∧
        tree.atoms.map Atom.text = other.atoms.map Atom.text) ∧
    (∀ text : String, (label text).toList =
        '"' :: replacing '\n' ['\\', 'n'] (replacing '"' ['\\', '"'] (replacing '\\' ['\\', '\\'] text.toList)) ++ ['"'] ∧
      ∀ rest, readText ((label text).toList.tail ++ rest) = some (text.toList, rest)) ∧
    (∀ operations, (Shared.after {} operations).tree.IsPlanted) ∧
    ∀ {σ : Type} (step : σ → Move σ) (start : List PassRecord → σ) (capacity : Nat) (exploration : Exploration),
      Reachable step start capacity exploration → exploration.tree.IsPlanted := by
  refine ⟨fun tree planted => planted.isDrawing, fun tree other planted also same => ?_, fun text => ?_,
    fun operations => (Arena.carries_empty.after operations).1.isPlanted,
    fun step start capacity exploration reachable => reachable.sound.toAccounted.isPlanted⟩
  · have bare := planted.bare_of_dot also same
    refine ⟨bare, ?_, ?_⟩
    · rw [← tree.leaves_bare, bare, other.leaves_bare]
    · rw [← tree.texts_bare, bare, other.texts_bare]
  · rw [replacing_in_turn, label, String.toList_ofList]
    refine ⟨rfl, fun rest => ?_⟩
    rw [List.cons_append, List.tail_cons, List.append_assoc]
    exact readText_escaped text.toList rest

/-- A line end and a backslash before an n are different texts, and are drawn as such. -/
theorem line_end_shown :
    let broken := (exploreFrom Script.move (callAfter (.any [keyRule "a\"b\\c\nd", keyRule "b"])) 2).tree
    let spelled := (exploreFrom Script.move (callAfter (.any [keyRule "a\"b\\c\\nd", keyRule "b"])) 2).tree
    ((broken.dot .simple).toList.splitOn '\n').length = 7 + 2 + 5 ∧
      .declare "n1" "a\"b\\c\nd" ∈ readDiagram (broken.dot .simple) ∧
      broken.dot .simple ≠ spelled.dot .simple := by
  intro broken spelled
  obtain ⟨drawn, told, _, _, explored⟩ := diagrams_faithful
  have brokenPlanted : broken.IsPlanted := explored _ _ _ _ (exploreFrom_reachable ..)
  have spelledPlanted : spelled.IsPlanted := explored _ _ _ _ (exploreFrom_reachable ..)
  have drawing := drawn broken brokenPlanted
  refine ⟨?_, ?_, fun same => ?_⟩
  · rw [drawing.lines]
    decide
  · rw [drawing.readBack]
    decide
  · have alike := (told broken spelled brokenPlanted spelledPlanted same).1
    revert alike
    decide

end Extension.Decision
