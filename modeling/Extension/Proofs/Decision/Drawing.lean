import Extension.Proofs.Decision.Growth
import Extension.Proofs.Decision.Numbering
import Extension.Proofs.Decision.Statements

namespace Extension.Decision

/-! What a diagram says of a tree.

A diagram is drawn from the table of a tree, whose rows go by their numbers.  A node goes by the number under which the
walk comes to its path, so that the same statements can be made of the tree itself.
-/

open Dot

namespace Dot

/-- The edges to the sides that are resolved.  Those of the root do not say which side it is. -/
def edgesFrom (source : String) (isRoot : Bool) (onTrue onFalse : Option String) : List Statement :=
  [(true, onTrue), (false, onFalse)].filterMap fun (answer, target?) =>
    target?.map (.edge source (if isRoot then none else some answer))

end Dot

namespace Graph

variable (graph : Graph)

def declarations : List Statement :=
  graph.rows.zipIdx.map fun numbered => .declare (nodeName numbered.2) numbered.1.atom.text

def edges : List Statement :=
  edgesFrom rootName true (targetName? nodeName graph.onTrue) (targetName? nodeName graph.onFalse) ++
    graph.rows.zipIdx.flatMap fun numbered =>
      edgesFrom (nodeName numbered.2) false (targetName? nodeName numbered.1.onTrue)
        (targetName? nodeName numbered.1.onFalse)

def statements : List Statement :=
  graph.declarations ++ graph.edges

/-- No target of a row leaves the table. -/
structure IsClosed : Prop where
  onTrue : ∀ index, graph.onTrue = .row index → index < graph.rows.length
  onFalse : ∀ index, graph.onFalse = .row index → index < graph.rows.length
  rows : ∀ row ∈ graph.rows, ∀ index, row.onTrue = .row index ∨ row.onFalse = .row index → index < graph.rows.length

end Graph

namespace Dot

theorem edgeLines_eq {name : Nat → String} {source : String} {depth : Int} {onTrue onFalse : Target} (isRoot : Bool)
    (root : depth = 0 ↔ isRoot = true) :
    edgeLines name source depth onTrue onFalse =
      (edgesFrom source isRoot (targetName? name onTrue) (targetName? name onFalse)).map Statement.line := by
  have lines (answer : Bool) (target : String) :
      edgeLine source depth answer target =
        (Statement.edge source (if isRoot then none else some answer) target).line := by
    cases isRoot with
    | true => rw [edgeLine, if_pos (root.mpr rfl)]; rfl
    | false =>
        rw [edgeLine, if_neg fun same => absurd (root.mp same) (by decide)]
        apply String.toList_inj.mp
        cases answer <;> simp [Statement.line, edgeEnd, toString]
  cases trueSide : targetName? name onTrue <;> cases falseSide : targetName? name onFalse
  all_goals simp [edgeLines, edgesFrom, trueSide, falseSide, lines]

theorem edgesFrom_mem {source : String} {isRoot : Bool} {onTrue onFalse : Option String} {statement : Statement} :
    statement ∈ edgesFrom source isRoot onTrue onFalse ↔
      ∃ answer target, (if answer then onTrue else onFalse) = some target ∧
        statement = .edge source (if isRoot then none else some answer) target := by
  simp [edgesFrom, @eq_comm _ statement, or_comm]

theorem met_eq (rows : List Row) :
    (List.range rows.length).filterMap (fun index => (rows[index]?).map (index, ·)) = rows.zipIdx.map Prod.swap := by
  induction rows using List.reverseRecOn with
  | nil => rfl
  | append_singleton rows row ih =>
      rw [List.length_append, List.length_singleton, List.range_succ, List.filterMap_append, List.zipIdx_append,
        List.map_append, ← ih]
      congr 1
      · refine List.filterMap_congr fun index member => ?_
        rw [List.getElem?_append_left (List.mem_range.mp member)]
      · simp

theorem lookup_same {pairs : List (Nat × Nat)} {number : Nat} (same : ∀ pair ∈ pairs, pair.1 = pair.2)
    (member : (number, number) ∈ pairs) : pairs.lookup number = some number := by
  cases found : pairs.lookup number with
  | none =>
      have missing := List.lookup_eq_none_iff.mp found _ member
      simp at missing
  | some other =>
      obtain ⟨before, behind, rfl, _⟩ := List.lookup_eq_some_iff.mp found
      exact congrArg some (same (number, other) (by simp)).symm

/-- The name under which a diagram shows a row. -/
def nameIn (met : List (Nat × Row)) (index : Nat) : String :=
  nodeName (((met.zipIdx.map fun ((index, _), place) => (index, place)).reverse.lookup index).getD 0)

theorem nameIn_eq {rows : List Row} {index : Nat} (inside : index < rows.length) :
    nameIn (rows.zipIdx.map Prod.swap) index = nodeName index := by
  -- the rows are met in their order, so that the place of each is its number
  rw [nameIn, lookup_same, Option.getD_some]
  · intro pair member
    obtain ⟨⟨⟨number, row⟩, place⟩, met, rfl⟩ := List.mem_map.mp (List.mem_reverse.mp member)
    have here := List.mem_zipIdx_iff_getElem?.mp met
    simp [List.getElem?_zipIdx] at here
    exact here.2.symm
  · rw [List.mem_reverse, List.mem_map]
    refine ⟨((index, rows[index]), index), List.mem_zipIdx_iff_getElem?.mpr ?_, rfl⟩
    simp [inside]

theorem draw_eq {graph : Graph} (closed : graph.IsClosed) (deeper : ∀ row ∈ graph.rows, row.atom.depth ≠ 0)
    (clauses : List String) :
    draw .simple graph (List.range graph.rows.length) clauses =
      "\n".intercalate (header ++ graph.statements.map Statement.line ++ ["\x7d"]) := by
  let met := graph.rows.zipIdx.map Prod.swap
  have named {target : Target} (inside : ∀ index, target = .row index → index < graph.rows.length) :
      targetName? (nameIn met) target = targetName? nodeName target := by
    cases target with
    | row index => exact congrArg some (nameIn_eq (inside index rfl))
    | _ => rfl
  have nodeLines : (met.zipIdx.map fun found => nodeLine .simple found.2 found.1.2.atom) =
      graph.declarations.map Statement.line := by
    apply List.ext_getElem?
    intro place
    cases here : graph.rows[place]? <;> simp [met, Graph.declarations, here]
    rfl
  have rootLines : edgeLines (nameIn met) "ROOT" 0 graph.onTrue graph.onFalse =
      (edgesFrom rootName true (targetName? nodeName graph.onTrue) (targetName? nodeName graph.onFalse)).map
        Statement.line := by
    rw [edgeLines_eq true (by simp), named closed.onTrue, named closed.onFalse]
    rfl
  have edges : (met.flatMap fun found =>
      edgeLines (nameIn met) (nameIn met found.1) found.2.atom.depth found.2.onTrue found.2.onFalse) =
      (graph.rows.zipIdx.flatMap fun numbered =>
        edgesFrom (nodeName numbered.2) false (targetName? nodeName numbered.1.onTrue)
          (targetName? nodeName numbered.1.onFalse)).map Statement.line := by
    rw [List.map_flatMap, List.flatMap_map]
    refine List.flatMap_congr fun numbered member => ?_
    obtain ⟨row, index⟩ := numbered
    have here := List.mem_zipIdx_iff_getElem?.mp member
    obtain ⟨inside, _⟩ := List.getElem?_eq_some_iff.mp here
    have held := List.mem_of_getElem? here
    have sides := closed.rows row held
    have source : nameIn met index = nodeName index := nameIn_eq inside
    rw [Prod.swap_prod_mk, edgeLines_eq false (by simp [deeper row held]), source,
      named fun _ same => sides _ (.inl same), named fun _ same => sides _ (.inr same)]
  rw [draw, met_eq]
  change "\n".intercalate (header ++ (met.zipIdx.map fun found => nodeLine .simple found.2 found.1.2.atom) ++
    edgeLines (nameIn met) "ROOT" 0 graph.onTrue graph.onFalse ++
    (met.flatMap fun found =>
      edgeLines (nameIn met) (nameIn met found.1) found.2.atom.depth found.2.onTrue found.2.onFalse) ++ [] ++
    ["\x7d"]) = _
  rw [nodeLines, rootLines, edges]
  simp [Graph.statements, Graph.edges]

end Dot

namespace Tree

variable (tree : Tree)

/-- The branch at the end of a path from the root. -/
def branchAt? : List Bool → Option Branch
  | [] => none
  | answer :: path => (Branch.side tree.onTrue tree.onFalse answer).follow path

def places : List (List Bool) :=
  tree.placed.map Prod.fst

/-- A node goes by its number in the walk. -/
def placeName (path : List Bool) : String :=
  if path = [] then rootName else nodeName (tree.places.idxOf path)

def sideName? (path : List Bool) : Branch → Option String
  | .unresolved => none
  | .result value => some (resultName value)
  | .node _ _ _ => some (tree.placeName path)

def declarations : List Statement :=
  tree.placed.map fun node => .declare (tree.placeName node.1) node.2.atom.text

def edgesAt (path : List Bool) (onTrue onFalse : Branch) : List Statement :=
  edgesFrom (tree.placeName path) (path = []) (tree.sideName? (path ++ [true]) onTrue)
    (tree.sideName? (path ++ [false]) onFalse)

def edges : List Statement :=
  tree.edgesAt [] tree.onTrue tree.onFalse ++
    tree.placed.flatMap fun node => tree.edgesAt node.1 node.2.onTrue node.2.onFalse

/-- What a diagram says of a tree. -/
def statements : List Statement :=
  tree.declarations ++ tree.edges

variable {tree}

theorem places_nodup : tree.places.Nodup :=
  tree.placed_nodup

theorem placed_ne_nil {path : List Bool} {node : Branch} (member : (path, node) ∈ tree.placed) : path ≠ [] := by
  rintro rfl
  cases tree.mem_placed.mp member

theorem placeName_eq {index : Nat} {path : List Bool} {node : Branch} (here : tree.placed[index]? = some (path, node)) :
    tree.placeName path = nodeName index := by
  have listed : tree.places[index]? = some path := by rw [places, List.getElem?_map, here]; rfl
  obtain ⟨inside, same⟩ := List.getElem?_eq_some_iff.mp listed
  rw [placeName, if_neg (placed_ne_nil (List.mem_of_getElem? here)), ← same, places_nodup.idxOf_getElem]

theorem sideName?_points {path : List Bool} {target : Target} {branch : Branch}
    (points : Points tree.placed path target branch) : targetName? nodeName target = tree.sideName? path branch := by
  cases points with
  | unresolved => rfl
  | result value => rfl
  | node here => exact congrArg some (placeName_eq here).symm

/-- Rows with their numbers are as good as nodes with their paths. -/
theorem map_rows {α : Type} {first : Row × Nat → α} {second : Placed → α}
    (same : ∀ index row node, tree.placed[index]? = some node → IsRowOf tree.placed row node →
      first (row, index) = second node) :
    tree.graph.rows.zipIdx.map first = tree.placed.map second := by
  apply List.ext_getElem?
  intro index
  rw [List.getElem?_map, List.getElem?_map, List.getElem?_zipIdx, Nat.zero_add]
  cases here : tree.placed[index]? with
  | none =>
      have beyond : tree.graph.rows[index]? = none := by
        rw [List.getElem?_eq_none_iff, tree.graph_rows.length_eq]
        exact List.getElem?_eq_none_iff.mp here
      rw [beyond]
      rfl
  | some node =>
      obtain ⟨row, there, isRow⟩ := forall₂_getElem? tree.graph_rows here
      rw [there]
      exact congrArg some (same index row node here isRow)

theorem graph_statements : tree.graph.statements = tree.statements := by
  have declared : tree.graph.declarations = tree.declarations := by
    refine map_rows fun index row node here isRow => ?_
    simp only [placeName_eq here, isRow.atom]
  obtain ⟨trueSide, falseSide⟩ := tree.graph_roots
  have rooted : edgesFrom rootName true (targetName? nodeName tree.graph.onTrue) (targetName? nodeName tree.graph.onFalse) =
      tree.edgesAt [] tree.onTrue tree.onFalse := by
    rw [sideName?_points trueSide, sideName?_points falseSide]
    rfl
  rw [Graph.statements, statements, declared, Graph.edges, edges, rooted, List.flatMap_def, List.flatMap_def, map_rows]
  intro index row node here isRow
  have below := placed_ne_nil (List.mem_of_getElem? here)
  simp only [edgesAt, placeName_eq here, sideName?_points isRow.onTrue, sideName?_points isRow.onFalse, below, decide_false]

theorem points_inside {path : List Bool} {target : Target} {branch : Branch} (points : Points tree.placed path target branch)
    {index : Nat} (same : target = .row index) : index < tree.graph.rows.length := by
  subst same
  cases points with
  | node here =>
      rw [tree.graph_rows.length_eq]
      exact (List.getElem?_eq_some_iff.mp here).1

theorem row_placed {row : Row} (member : row ∈ tree.graph.rows) : ∃ node ∈ tree.placed, IsRowOf tree.placed row node := by
  obtain ⟨index, here⟩ := List.mem_iff_getElem?.mp member
  obtain ⟨node, there, isRow⟩ := forall₂_getElem? tree.graph_rows.flip here
  exact ⟨node, List.mem_of_getElem? there, isRow⟩

theorem graph_closed : tree.graph.IsClosed where
  onTrue _ := points_inside tree.graph_roots.1
  onFalse _ := points_inside tree.graph_roots.2
  rows row member index side := by
    obtain ⟨_, _, isRow⟩ := row_placed member
    rcases side with same | same
    · exact points_inside isRow.onTrue same
    · exact points_inside isRow.onFalse same

theorem IsPlanted.deeper (planted : tree.IsPlanted) : ∀ row ∈ tree.graph.rows, row.atom.depth ≠ 0 := by
  intro row member
  obtain ⟨⟨path, node⟩, met, isRow⟩ := row_placed member
  have depth := planted.depths path node (tree.mem_placed.mp met)
  have below := List.length_pos_of_ne_nil (placed_ne_nil met)
  rw [isRow.atom, depth]
  omega

theorem IsPlanted.dot_eq (planted : tree.IsPlanted) :
    tree.dot .simple = "\n".intercalate (header ++ tree.statements.map Statement.line ++ ["\x7d"]) := by
  rw [dot, draw_eq graph_closed planted.deeper, graph_statements]

end Tree

end Extension.Decision
