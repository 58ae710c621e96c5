import Extension.Proofs.Decision.Rows

namespace Extension.Decision

/-! The stack from which clauses are generated.

A visit is a row with the literals that lead to it, and the last visit is the next one.  What a visit pushes comes
to an end before what it has found on the stack is looked at, so that it gives the clauses of its node by recursion,
whatever stands below it and however many places share its row.
-/

structure Visit where
  index : Nat
  literals : List Literal

structure Generator where
  stack : List Visit
  found : List String

def Target.isTrue : Target → Bool
  | .result true => true
  | _ => false

def Target.visits (literals : List Literal) : Target → List Visit
  | .row index => [⟨index, literals⟩]
  | _ => []

namespace Graph

def generator (graph : Graph) : Generator :=
  if graph.onTrue.isTrue then ⟨[], [conjunction []]⟩ else ⟨graph.onTrue.visits [], []⟩

/-- Visits a row: nothing is below it if both of its sides are true. -/
def visit (row : Row) (literals : List Literal) (stack : List Visit) (found : List String) : Generator :=
  if row.onTrue.isTrue && row.onFalse.isTrue then ⟨stack, found ++ [conjunction literals]⟩
  else
    let longer (outcome : Bool) := literals ++ [⟨row.atom.text, outcome⟩]
    let own :=
      if row.onTrue.isTrue then [conjunction (longer true)]
      else if row.onFalse.isTrue then [conjunction (longer false)]
      else []
    let below (outcome : Bool) := if row.onTrue.isTrue || row.onFalse.isTrue then literals else longer outcome
    let pending := row.onTrue.visits (below true) ++ row.onFalse.visits (below false)
    ⟨stack ++ pending.reverse, found ++ own⟩

/-- Takes the last visit from the stack. -/
def generate (graph : Graph) (generator : Generator) : Generator :=
  match generator.stack.getLast? with
  | none => generator
  | some ⟨index, literals⟩ =>
      match graph.rows[index]? with
      | some row => visit row literals generator.stack.dropLast generator.found
      | none => { generator with stack := generator.stack.dropLast }

/-- The path leads from the root to a node that has a true side. -/
def EndsTrue (graph : Graph) : List Bool → Prop
  | [] => graph.onTrue = .result true
  | false :: _ => False
  | true :: path => ∃ index row, graph.follow graph.onTrue path = some (.row index) ∧ graph.rows[index]? = some row ∧
      (row.onTrue = .result true ∨ row.onFalse = .result true)

end Graph

namespace Branch

/-- The path leads to a node that has a true side. -/
def EndsTrue (branch : Branch) (path : List Bool) : Prop :=
  ∃ atom onTrue onFalse, branch.follow path = some (.node atom onTrue onFalse) ∧
    (onTrue = .result true ∨ onFalse = .result true)

/-- The paths to the nodes that have a true side, each before those that go on from it. -/
def truePaths : Branch → List (List Bool)
  | .node _ onTrue onFalse =>
      (if onTrue.isTrue || onFalse.isTrue then [[]] else []) ++ onTrue.truePaths.map (true :: ·) ++
        onFalse.truePaths.map (false :: ·)
  | _ => []

/-- The clause of the node at the end of a path. -/
def clauseAt (literals : List Literal) : Branch → List Bool → List Literal
  | .node atom onTrue onFalse, [] => (ownClause literals atom onTrue onFalse).headD []
  | .node atom onTrue onFalse, answer :: path =>
      (side onTrue onFalse answer).clauseAt (extend literals atom onTrue onFalse answer) path
  | _, _ => []
termination_by structural _ path => path

end Branch

namespace Tree

/-- The clauses by recursion.  A tree that is plainly true has one without literals. -/
def recursiveClauses (tree : Tree) : List (List Literal) :=
  if tree.onTrue.isTrue then [[]] else tree.onTrue.clausesBelow []

/-- The path leads from the root to a node that has a true side. -/
def EndsTrue (tree : Tree) : List Bool → Prop
  | [] => tree.onTrue = .result true
  | false :: _ => False
  | true :: path => tree.onTrue.EndsTrue path

def clauseAt (tree : Tree) (path : List Bool) : List Literal :=
  tree.onTrue.clauseAt [] path.tail

end Tree

/-- Each path to a true side gives one clause, in depth-first order with the true side first. -/
def InDepthFirstOrder (ends : List Bool → Prop) (clause : List Bool → List Literal) (clauses : List (List Literal)) :
    Prop :=
  ∃ paths : List (List Bool), paths.Pairwise (List.Lex (· > ·)) ∧ paths.Nodup ∧ (∀ path, path ∈ paths ↔ ends path) ∧
    clauses = paths.map clause

namespace Branch

theorem isTrue_eq_false {branch : Branch} : branch.isTrue = false ↔ branch ≠ .result true := by
  rw [← Bool.not_eq_true, isTrue_iff]

theorem ownClause_eq (literals : List Literal) (atom : Atom) (onTrue onFalse : Branch) :
    ownClause literals atom onTrue onFalse =
      if onTrue.isTrue || onFalse.isTrue then [(ownClause literals atom onTrue onFalse).headD []] else [] := by
  cases left : onTrue.isTrue <;> cases right : onFalse.isTrue <;> simp [ownClause, left, right]

theorem clausesBelow_eq_map (branch : Branch) (literals : List Literal) :
    branch.clausesBelow literals = branch.truePaths.map (branch.clauseAt literals) := by
  induction branch generalizing literals with
  | unresolved => rfl
  | result value => rfl
  | node atom onTrue onFalse trueIH falseIH =>
      have own : ownClause literals atom onTrue onFalse =
          (if onTrue.isTrue || onFalse.isTrue then [[]] else []).map
            ((node atom onTrue onFalse).clauseAt literals) := by
        rw [ownClause_eq]
        split <;> simp [clauseAt]
      rw [clausesBelow, truePaths, List.map_append, List.map_append, ← own, trueIH, falseIH, List.map_map, List.map_map]
      rfl

theorem mem_truePaths {branch : Branch} {path : List Bool} : path ∈ branch.truePaths ↔ branch.EndsTrue path := by
  induction branch generalizing path with
  | unresolved => cases path <;> simp [truePaths, EndsTrue, follow]
  | result value => cases path <;> simp [truePaths, EndsTrue, follow]
  | node atom onTrue onFalse trueIH falseIH =>
      cases path with
      | nil =>
          rw [truePaths, EndsTrue]
          split
          · next plain => simpa [follow, isTrue_iff] using plain
          · next plain => simpa [follow, isTrue_iff] using plain
      | cons answer path =>
          cases answer with
          | true => simp [truePaths, trueIH, EndsTrue, follow]
          | false => simp [truePaths, falseIH, EndsTrue, follow]

theorem truePaths_ordered (branch : Branch) : branch.truePaths.Pairwise (List.Lex (· > ·)) := by
  induction branch with
  | unresolved => exact .nil
  | result value => exact .nil
  | node atom onTrue onFalse trueIH falseIH =>
      rw [truePaths, List.pairwise_append, List.pairwise_append]
      refine ⟨⟨?_, ?_, ?_⟩, ?_, ?_⟩
      · split <;> simp
      · exact List.pairwise_map.mpr (trueIH.imp .cons)
      · intro first own second below
        obtain ⟨path, _, rfl⟩ := List.mem_map.mp below
        split at own
        · rw [List.mem_singleton.mp own]
          exact .nil
        · cases own
      · exact List.pairwise_map.mpr (falseIH.imp .cons)
      · intro first earlier second below
        obtain ⟨path, _, rfl⟩ := List.mem_map.mp below
        rcases List.mem_append.mp earlier with own | above
        · split at own
          · rw [List.mem_singleton.mp own]
            exact .nil
          · cases own
        · obtain ⟨other, _, rfl⟩ := List.mem_map.mp above
          exact .rel rfl

end Branch

theorem lex_irrefl (path : List Bool) : ¬ List.Lex (· > ·) path path := by
  induction path with
  | nil => exact nofun
  | cons answer path ih =>
      intro less
      cases less with
      | cons less => exact ih less
      | rel less => exact absurd less (by cases answer <;> decide)

namespace Tree

theorem literalClauses_recursive (tree : Tree) : tree.literalClauses = tree.recursiveClauses := by
  cases plain : tree.onTrue.isTrue with
  | true => simp [recursiveClauses, plain, literalClauses_isTrue plain]
  | false => simp [recursiveClauses, plain, literalClauses_eq plain]

theorem recursiveClauses_ordered (tree : Tree) :
    InDepthFirstOrder tree.EndsTrue tree.clauseAt tree.recursiveClauses := by
  rw [recursiveClauses]
  cases plain : tree.onTrue.isTrue with
  | true =>
      have whole := Branch.isTrue_iff.mp plain
      refine ⟨[[]], List.pairwise_singleton .., List.pairwise_singleton .., fun path => ?_, ?_⟩
      · cases path with
        | nil => simp [EndsTrue, whole]
        | cons answer path =>
            cases answer <;> cases path <;> simp [EndsTrue, whole, Branch.EndsTrue, Branch.follow]
      · simp [clauseAt, whole, Branch.clauseAt]
  | false =>
      have ordered : (tree.onTrue.truePaths.map (true :: ·)).Pairwise (List.Lex (· > ·)) :=
        List.pairwise_map.mpr (tree.onTrue.truePaths_ordered.imp .cons)
      have distinct : (tree.onTrue.truePaths.map (true :: ·)).Nodup := ordered.imp fun less same => by
        rw [same] at less
        exact lex_irrefl _ less
      refine ⟨tree.onTrue.truePaths.map (true :: ·), ordered, distinct, fun path => ?_, ?_⟩
      · cases path with
        | nil => simp [EndsTrue, Branch.isTrue_eq_false.mp plain]
        | cons answer path => cases answer <;> simp [EndsTrue, Branch.mem_truePaths]
      · rw [List.map_map]
        exact Branch.clausesBelow_eq_map ..

end Tree

namespace Graph

variable {graph : Graph} {target : Target} {branch : Branch}

theorem Unfolds.isTrue (unfolds : graph.Unfolds target branch) : target.isTrue = branch.isTrue := by
  cases unfolds with
  | result value => cases value <;> rfl
  | _ => rfl

theorem Unfolds.endsTrue_iff (unfolds : graph.Unfolds graph.onTrue graph.tree.onTrue) (path : List Bool) :
    graph.tree.EndsTrue path ↔ graph.EndsTrue path := by
  match path with
  | [] => exact unfolds.result_iff true
  | false :: _ => exact Iff.rfl
  | true :: path =>
      constructor
      · rintro ⟨atom, onTrue, onFalse, reached, plain⟩
        obtain ⟨place, leads, node⟩ := unfolds.follow reached
        cases node with
        | row found trueSide falseSide =>
            exact ⟨_, _, leads, found, plain.imp (trueSide.result_iff true).mp (falseSide.result_iff true).mp⟩
      · rintro ⟨index, row, leads, found, plain⟩
        obtain ⟨node, reached, unfolds⟩ := unfolds.of_follow leads
        cases unfolds with
        | missing missing => cases found.symm.trans missing
        | row same trueSide falseSide =>
            cases found.symm.trans same
            exact ⟨_, _, _, reached, plain.imp (trueSide.result_iff true).mpr (falseSide.result_iff true).mpr⟩

theorem generate_visit {stack : List Visit} {found : List String} {index : Nat} {literals : List Literal} {row : Row}
    (here : graph.rows[index]? = some row) :
    graph.generate ⟨stack ++ [⟨index, literals⟩], found⟩ = visit row literals stack found := by
  simp [generate, here]

theorem generate_missing {stack : List Visit} {found : List String} {index : Nat} {literals : List Literal}
    (missing : graph.rows[index]? = none) :
    graph.generate ⟨stack ++ [⟨index, literals⟩], found⟩ = ⟨stack, found⟩ := by
  simp [generate, missing]

@[simp] theorem generate_done (found : List String) : graph.generate ⟨[], found⟩ = ⟨[], found⟩ := rfl

theorem visits_reverse (target : Target) (literals : List Literal) :
    (target.visits literals).reverse = target.visits literals := by
  cases target <;> rfl

/-- A visit puts the clause of its node behind those that were found, and its true side on top of its false side. -/
theorem visit_eq (row : Row) {onTrue onFalse : Branch} (trueSide : graph.Unfolds row.onTrue onTrue)
    (falseSide : graph.Unfolds row.onFalse onFalse) (literals : List Literal) (stack : List Visit)
    (found : List String) :
    visit row literals stack found =
      ⟨stack ++ row.onFalse.visits (Branch.extend literals row.atom onTrue onFalse false) ++
          row.onTrue.visits (Branch.extend literals row.atom onTrue onFalse true),
        found ++ (Branch.ownClause literals row.atom onTrue onFalse).map conjunction⟩ := by
  have silent {target : Target} (plain : target.isTrue = true) (literals : List Literal) :
      target.visits literals = [] := by
    cases target with
    | row => cases plain
    | _ => rfl
  simp only [visit, trueSide.isTrue, falseSide.isTrue, List.reverse_append, visits_reverse, Branch.extend,
    Branch.ownClause]
  cases left : onTrue.isTrue with
  | false => cases right : onFalse.isTrue <;> simp
  | true =>
      cases right : onFalse.isTrue with
      | false => simp
      | true =>
          have trueSilent := silent (trueSide.isTrue.trans left)
          have falseSilent := silent (falseSide.isTrue.trans right)
          simp [trueSilent, falseSilent]

/-- The clauses below a target come to be found before anything else on the stack is visited. -/
theorem Unfolds.generates (unfolds : graph.Unfolds target branch) (literals : List Literal) (stack : List Visit)
    (found : List String) :
    ∃ count, graph.generate^[count] ⟨stack ++ target.visits literals, found⟩ =
      ⟨stack, found ++ (branch.clausesBelow literals).map conjunction⟩ := by
  induction unfolds generalizing literals stack found with
  | unresolved => exact ⟨0, by simp [Target.visits, Branch.clausesBelow]⟩
  | result value => exact ⟨0, by simp [Target.visits, Branch.clausesBelow]⟩
  | missing missing =>
      refine ⟨1, ?_⟩
      rw [Function.iterate_one, Target.visits, generate_missing missing]
      simp [Branch.clausesBelow]
  | @row index row onTrue onFalse here trueSide falseSide trueIH falseIH =>
      let own := (Branch.ownClause literals row.atom onTrue onFalse).map conjunction
      let longer := Branch.extend literals row.atom onTrue onFalse
      obtain ⟨first, trueDone⟩ := trueIH (longer true) (stack ++ row.onFalse.visits (longer false)) (found ++ own)
      obtain ⟨second, falseDone⟩ := falseIH (longer false) stack
        (found ++ own ++ (onTrue.clausesBelow (longer true)).map conjunction)
      refine ⟨second + (first + 1), ?_⟩
      rw [Function.iterate_add_apply, Function.iterate_succ_apply, Target.visits, generate_visit here,
        visit_eq row trueSide falseSide, trueDone, falseDone, Branch.clausesBelow]
      simp [own, longer]

theorem Unfolds.generated (unfolds : graph.Unfolds graph.onTrue graph.tree.onTrue) :
    ∃ count, graph.generate^[count] graph.generator = ⟨[], graph.tree.clauses⟩ := by
  rw [generator, unfolds.isTrue, Tree.clauses, Tree.literalClauses_recursive, Tree.recursiveClauses]
  cases graph.tree.onTrue.isTrue with
  | true => exact ⟨0, rfl⟩
  | false => exact unfolds.generates [] [] []

end Graph

/-- The generator comes to an end, and has found the clauses that the recursion gives, for trees as they are and for
those in which nodes are shared.  There is one clause for each path from the root to a node with a true side. -/
theorem clauses_depth_first :
    (∀ tree : Tree, tree.literalClauses = tree.recursiveClauses ∧
      InDepthFirstOrder tree.EndsTrue tree.clauseAt tree.literalClauses) ∧
    ∀ graph : Graph, graph.Acyclic →
      (∃ count, ∀ more, graph.generate^[count + more] graph.generator = ⟨[], graph.tree.clauses⟩) ∧
      graph.tree.clauses = graph.tree.recursiveClauses.map conjunction ∧
      InDepthFirstOrder graph.EndsTrue graph.tree.clauseAt graph.tree.recursiveClauses := by
  refine ⟨fun tree => ?_, fun graph acyclic => ?_⟩
  · rw [tree.literalClauses_recursive]
    exact ⟨rfl, tree.recursiveClauses_ordered⟩
  · have unfolds := acyclic.unfolds
    refine ⟨?_, by rw [Tree.clauses, Tree.literalClauses_recursive], ?_⟩
    · obtain ⟨count, done⟩ := unfolds.generated
      refine ⟨count, fun more => ?_⟩
      rw [Nat.add_comm, Function.iterate_add_apply, done]
      exact Function.iterate_fixed (Graph.generate_done _) more
    · obtain ⟨paths, ordered, distinct, ends, clauses⟩ := graph.tree.recursiveClauses_ordered
      exact ⟨paths, ordered, distinct, fun path => (ends path).trans (unfolds.endsTrue_iff path), clauses⟩

theorem sharing_depth_first :
    sharing.Acyclic ∧
    (∃ count, sharing.generate^[count] sharing.generator = ⟨[], ["a && !a", "!a && b == 1 | x && !a"]⟩) ∧
    sharing.tree.clauses = ["a && !a", "!a && b == 1 | x && !a"] ∧
    InDepthFirstOrder sharing.EndsTrue sharing.tree.clauseAt sharing.tree.recursiveClauses := by
  have acyclic : sharing.Acyclic := Graph.acyclic_of_rising (by decide)
  obtain ⟨⟨count, done⟩, clauses, ordered⟩ := clauses_depth_first.2 sharing acyclic
  have found : sharing.tree.clauses = ["a && !a", "!a && b == 1 | x && !a"] := clauses.trans (by decide)
  exact ⟨acyclic, ⟨count, found ▸ done 0⟩, found, ordered⟩

end Extension.Decision
