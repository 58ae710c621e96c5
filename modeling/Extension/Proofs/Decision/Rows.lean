import Mathlib.Data.List.Perm.Subperm
import Mathlib.Logic.Function.Iterate
import Mathlib.Logic.Relation
import Extension.Decision.Graph
import Extension.Proofs.Clause.Evaluation
import Extension.Proofs.Decision.Clauses

namespace Extension.Decision

open Clause Relation

/-! Walking to a result, in a tree and in a table of rows.

A walk takes at each node the side that the truth of its test selects.  A table without cycles is walked as the tree that
it unfolds to, also where several places share a row, and no path in it is cut off.
-/

variable (truth : Truth)

namespace Branch

/-- One step of a walk.  A walk that has come to an end stays there. -/
def next : Branch → Branch
  | .node atom onTrue onFalse => side onTrue onFalse (truth atom.text)
  | branch => branch

theorem decide_next (branch : Branch) : (branch.next truth).decide truth = branch.decide truth := by
  cases branch with
  | node atom onTrue onFalse =>
      rw [next, decide]
      cases truth atom.text <;> rfl
  | _ => rfl

theorem decide_walk (branch : Branch) (steps : Nat) :
    ((next truth)^[steps] branch).decide truth = branch.decide truth := by
  induction steps generalizing branch with
  | zero => rfl
  | succ steps ih => rw [Function.iterate_succ_apply, ih, decide_next]

theorem walk_ends (branch : Branch) : ∃ steps, ((next truth)^[steps] branch).isNode = false := by
  induction branch with
  | node atom onTrue onFalse trueIH falseIH =>
      have below : ∃ steps, ((next truth)^[steps] (side onTrue onFalse (truth atom.text))).isNode = false := by
        cases truth atom.text with
        | true => exact trueIH
        | false => exact falseIH
      obtain ⟨steps, ended⟩ := below
      exact ⟨steps + 1, ended⟩
  | _ => exact ⟨0, rfl⟩

theorem decide_ended {branch : Branch} (ended : branch.isNode = false) :
    branch.decide truth = true ↔ branch = .result true := by
  cases branch with
  | node => cases ended
  | _ => simp [decide]

/-- A walk comes to an end, and the tree decides for true just when a true result stands there. -/
theorem decide_iff_walk (branch : Branch) :
    branch.decide truth = true ↔ ∃ steps, (next truth)^[steps] branch = .result true := by
  constructor
  · intro leads
    obtain ⟨steps, ended⟩ := branch.walk_ends truth
    exact ⟨steps, (decide_ended truth ended).mp (by rw [decide_walk, leads])⟩
  · rintro ⟨steps, arrived⟩
    rw [← branch.decide_walk truth steps, arrived, decide]

end Branch

namespace Graph

variable {graph : Graph} {target : Target} {branch : Branch}

inductive Below (graph : Graph) : Target → Target → Prop
  | onTrue {index : Nat} {row : Row} (found : graph.rows[index]? = some row) : Below graph (.row index) row.onTrue
  | onFalse {index : Nat} {row : Row} (found : graph.rows[index]? = some row) : Below graph (.row index) row.onFalse

abbrev Reaches (graph : Graph) : Target → Target → Prop :=
  ReflTransGen graph.Below

/-- Nothing that is reached from the true side of the root is below itself. -/
def Acyclic (graph : Graph) : Prop :=
  ∀ target, graph.Reaches graph.onTrue target → ¬ TransGen graph.Below target target

/-- Nothing that is reached from the target is below itself. -/
def AcyclicFrom (graph : Graph) (target : Target) : Prop :=
  ∀ other, graph.Reaches target other → ¬ TransGen graph.Below other other

/-- The tests of the rows that are reached from the true side of the root can be written in a clause. -/
def Conforms (graph : Graph) : Prop :=
  ∀ index row, graph.Reaches graph.onTrue (.row index) → graph.rows[index]? = some row → IsTest row.atom.text.toList

/-- One step of a walk over the rows.  A row that is missing stands for nothing. -/
def next (graph : Graph) : Target → Target
  | .row index =>
      match graph.rows[index]? with
      | some row => if truth row.atom.text then row.onTrue else row.onFalse
      | none => .unresolved
  | target => target

/-- What a target stands for, with no path cut off. -/
inductive Unfolds (graph : Graph) : Target → Branch → Prop
  | unresolved : Unfolds graph .unresolved .unresolved
  | result (value : Bool) : Unfolds graph (.result value) (.result value)
  | missing {index : Nat} (missing : graph.rows[index]? = none) : Unfolds graph (.row index) .unresolved
  | row {index : Nat} {row : Row} {onTrue onFalse : Branch} (found : graph.rows[index]? = some row)
      (trueSide : Unfolds graph row.onTrue onTrue) (falseSide : Unfolds graph row.onFalse onFalse) :
      Unfolds graph (.row index) (.node row.atom onTrue onFalse)

/-- The rows above a target on a path, none of which stands on the path twice. -/
structure Above (graph : Graph) (target : Target) (seen : List Nat) : Prop where
  nodup : seen.Nodup
  inside : ∀ index ∈ seen, index < graph.rows.length
  above : ∀ index ∈ seen, TransGen graph.Below (.row index) target

theorem Above.length_le {seen : List Nat} (above : graph.Above target seen) : seen.length ≤ graph.rows.length := by
  have inside : seen ⊆ List.range graph.rows.length := fun index member =>
    List.mem_range.mpr (above.inside index member)
  have fewer := (List.subperm_of_subset above.nodup inside).length_le
  rwa [List.length_range] at fewer

theorem Above.step {index : Nat} {seen : List Nat} (above : graph.Above (.row index) seen)
    (acyclic : ¬ TransGen graph.Below (.row index) (.row index)) (inside : index < graph.rows.length)
    (below : graph.Below (.row index) target) : graph.Above target (index :: seen) where
  nodup := List.nodup_cons.mpr ⟨fun member => acyclic (above.above index member), above.nodup⟩
  inside := List.forall_mem_cons.mpr ⟨inside, above.inside⟩
  above := List.forall_mem_cons.mpr ⟨.single below, fun other member => (above.above other member).tail below⟩

/-- With the rows above it, the height is enough for every path. -/
theorem unfold_unfolds {height : Nat} {seen : List Nat} (acyclic : graph.AcyclicFrom target)
    (above : graph.Above target seen) (enough : graph.rows.length ≤ seen.length + height) :
    graph.Unfolds target (graph.unfold height target) := by
  induction height generalizing target seen with
  | zero =>
      cases target with
      | unresolved => exact .unresolved
      | result value => exact .result value
      | row index =>
          cases found : graph.rows[index]? with
          | none => exact .missing found
          | some row =>
              -- all rows stand above this one, so that a row below it would be above itself
              obtain ⟨inside, _⟩ := List.getElem?_eq_some_iff.mp found
              have longer := (above.step (acyclic _ .refl) inside (.onTrue found)).length_le
              rw [List.length_cons] at longer
              omega
  | succ height ih =>
      cases target with
      | unresolved => exact .unresolved
      | result value => exact .result value
      | row index =>
          rw [unfold]
          cases found : graph.rows[index]? with
          | none => exact .missing found
          | some row =>
              obtain ⟨inside, _⟩ := List.getElem?_eq_some_iff.mp found
              have further {side : Target} (below : graph.Below (.row index) side) :
                  graph.Unfolds side (graph.unfold height side) := by
                refine ih (fun other reached => acyclic other (reached.head below))
                  (above.step (acyclic _ .refl) inside below) ?_
                rw [List.length_cons]
                omega
              exact .row found (further (.onTrue found)) (further (.onFalse found))

theorem AcyclicFrom.unfolds (acyclic : graph.AcyclicFrom target) :
    graph.Unfolds target (graph.unfold graph.rows.length target) :=
  unfold_unfolds acyclic ⟨.nil, nofun, nofun⟩ (by simp)

theorem Acyclic.unfolds (acyclic : graph.Acyclic) : graph.Unfolds graph.onTrue graph.tree.onTrue :=
  AcyclicFrom.unfolds acyclic

/-- Where a path leads.  Nothing is behind a row that is missing. -/
def follow (graph : Graph) : Target → List Bool → Option Target
  | target, [] => some target
  | .row index, answer :: path =>
      graph.rows[index]?.bind fun row => graph.follow (if answer then row.onTrue else row.onFalse) path
  | _, _ :: _ => none
termination_by structural _ path => path

theorem Unfolds.follow {path : List Bool} {found : Branch} (unfolds : graph.Unfolds target branch)
    (reached : branch.follow path = some found) :
    ∃ place, graph.follow target path = some place ∧ graph.Unfolds place found := by
  induction path generalizing target branch with
  | nil =>
      cases reached
      exact ⟨target, by rw [Graph.follow], unfolds⟩
  | cons answer path ih =>
      cases unfolds with
      | row row trueSide falseSide =>
          cases answer with
          | true =>
              obtain ⟨place, leads, same⟩ := ih trueSide reached
              exact ⟨place, by simpa [Graph.follow, row] using leads, same⟩
          | false =>
              obtain ⟨place, leads, same⟩ := ih falseSide reached
              exact ⟨place, by simpa [Graph.follow, row] using leads, same⟩
      | _ => cases reached

theorem Unfolds.of_follow {path : List Bool} {place : Target} (unfolds : graph.Unfolds target branch)
    (reached : graph.follow target path = some place) :
    ∃ found, branch.follow path = some found ∧ graph.Unfolds place found := by
  induction path generalizing target branch with
  | nil =>
      rw [Graph.follow] at reached
      cases reached
      exact ⟨branch, rfl, unfolds⟩
  | cons answer path ih =>
      cases unfolds with
      | row row trueSide falseSide =>
          cases answer with
          | true => exact ih trueSide (by simpa [Graph.follow, row] using reached)
          | false => exact ih falseSide (by simpa [Graph.follow, row] using reached)
      | missing missing => simp [Graph.follow, missing] at reached
      | _ => simp [Graph.follow] at reached

theorem Unfolds.conforms (unfolds : graph.Unfolds target branch) (conforms : graph.Conforms)
    (reached : graph.Reaches graph.onTrue target) : branch.Conforms := by
  induction unfolds with
  | row found _ _ trueIH falseIH =>
      exact ⟨conforms _ _ reached found, trueIH (reached.tail (.onTrue found)), falseIH (reached.tail (.onFalse found))⟩
  | _ => trivial

theorem next_row {index : Nat} {row : Row} (found : graph.rows[index]? = some row) :
    graph.next truth (.row index) = if truth row.atom.text then row.onTrue else row.onFalse := by
  simp only [next, found]

theorem Unfolds.next (unfolds : graph.Unfolds target branch) :
    graph.Unfolds (graph.next truth target) (branch.next truth) := by
  cases unfolds with
  | unresolved => exact .unresolved
  | result value => exact .result value
  | missing missing =>
      simp only [Graph.next, missing]
      exact .unresolved
  | @row index row onTrue onFalse found trueSide falseSide =>
      rw [next_row truth found, Branch.next]
      cases truth row.atom.text with
      | true => exact trueSide
      | false => exact falseSide

theorem Unfolds.walk (unfolds : graph.Unfolds target branch) (steps : Nat) :
    graph.Unfolds ((graph.next truth)^[steps] target) ((Branch.next truth)^[steps] branch) := by
  induction steps generalizing target branch with
  | zero => exact unfolds
  | succ steps ih =>
      rw [Function.iterate_succ_apply, Function.iterate_succ_apply]
      exact ih (unfolds.next truth)

theorem Unfolds.result_iff (unfolds : graph.Unfolds target branch) (value : Bool) :
    branch = .result value ↔ target = .result value := by
  cases unfolds <;> simp

theorem Unfolds.ends (unfolds : graph.Unfolds target branch) (ended : branch.isNode = false) :
    Target.index? (graph.next truth target) = none := by
  cases unfolds with
  | row => cases ended
  | missing missing =>
      simp only [Graph.next, missing]
      rfl
  | _ => rfl

theorem Unfolds.walk_ends (unfolds : graph.Unfolds target branch) :
    ∃ steps, Target.index? ((graph.next truth)^[steps] target) = none := by
  -- where the tree has come to nothing, the rows may still be at a row that is missing
  obtain ⟨steps, ended⟩ := branch.walk_ends truth
  refine ⟨steps + 1, ?_⟩
  rw [Function.iterate_succ_apply']
  exact (unfolds.walk truth steps).ends truth ended

/-- How far down a target is in a table whose rows name only rows behind them. -/
def rank (graph : Graph) (target : Target) : Nat :=
  (Target.index? target).getD graph.rows.length

theorem acyclicFrom_of_rising (rising : ∀ index < graph.rows.length, ∀ other ∈ graph.below index, index < other)
    (target : Target) : graph.AcyclicFrom target := by
  have named {index : Nat} {row : Row} (found : graph.rows[index]? = some row) {side : Target}
      (member : side ∈ [row.onTrue, row.onFalse]) : index < graph.rank side := by
    obtain ⟨inside, _⟩ := List.getElem?_eq_some_iff.mp found
    cases side with
    | row other =>
        refine rising index inside other ?_
        rw [below, found]
        exact List.mem_filterMap.mpr ⟨_, member, rfl⟩
    | _ => exact inside
  have step {source side : Target} (below : graph.Below source side) : graph.rank source < graph.rank side := by
    cases below with
    | onTrue found => exact named found (by simp)
    | onFalse found => exact named found (by simp)
  intro other _ cycle
  have down : TransGen (· < ·) (graph.rank other) (graph.rank other) := cycle.lift graph.rank fun _ _ => step
  rw [transGen_eq_self] at down
  exact Nat.lt_irrefl _ down

theorem acyclic_of_rising (rising : ∀ index < graph.rows.length, ∀ other ∈ graph.below index, index < other) :
    graph.Acyclic :=
  acyclicFrom_of_rising rising graph.onTrue

end Graph

/-- The clause of a tree is true just when the walk from the true side of its root ends at a true result, for trees as
they are and for those that are written as tables in which rows are shared. -/
theorem clause_walks :
    (∀ tree : Tree, tree.onTrue.Conforms → ∀ table : TruthTable, ∃ value,
      evaluateClause tree.clause table = .ok value ∧
      (∃ steps, ((Branch.next table.truth)^[steps] tree.onTrue).isNode = false) ∧
      (value = true ↔ ∃ steps, (Branch.next table.truth)^[steps] tree.onTrue = .result true)) ∧
    ∀ graph : Graph, graph.Acyclic → graph.Conforms → ∀ table : TruthTable, ∃ value,
      evaluateClause graph.tree.clause table = .ok value ∧
      (∃ steps, Graph.Target.index? ((graph.next table.truth)^[steps] graph.onTrue) = none) ∧
      (value = true ↔ ∃ steps, (graph.next table.truth)^[steps] graph.onTrue = .result true) := by
  have walked {tree : Tree} (conforms : tree.onTrue.Conforms) (table : TruthTable) :
      evaluateClause tree.clause table = .ok (tree.onTrue.decide table.truth) := by
    obtain ⟨expr, parsed, means⟩ := Tree.clause_reads conforms
    rw [evaluateClause, parsed]
    change (evaluate expr table.truth table.otherTruth).mapError _ = _
    rw [evaluate_eq_value, means]
    rfl
  refine ⟨fun tree conforms table => ?_, fun graph acyclic conforms table => ?_⟩
  · exact ⟨_, walked conforms table, Branch.walk_ends .., Branch.decide_iff_walk ..⟩
  · have unfolds := acyclic.unfolds
    refine ⟨_, walked (unfolds.conforms conforms .refl) table, unfolds.walk_ends _, ?_⟩
    rw [Branch.decide_iff_walk]
    exact exists_congr fun steps => (unfolds.walk table.truth steps).result_iff true

/-- A table in which two rows name the last but one, one test is made twice on a path, and the depths are no depths. -/
def sharing : Graph where
  onTrue := .row 0
  onFalse := .unresolved
  rows := [⟨⟨"a", 5, "a"⟩, .row 2, .row 1⟩, ⟨⟨"b == 1 | x", -1, "b"⟩, .row 2, .unresolved⟩,
    ⟨⟨"a", 5, "a"⟩, .result false, .row 3⟩, ⟨⟨"c", 0, "c"⟩, .result true, .result true⟩]

theorem sharing_walks :
    sharing.Acyclic ∧ sharing.Conforms ∧ sharing.tree.onTrue.Conforms ∧
      (∃ value, evaluateClause sharing.tree.clause (.entries [("b == 1 | x", .int 7)]) = .ok value ∧
        (value = true ↔
          ∃ steps, (sharing.next (TruthTable.entries [("b == 1 | x", .int 7)]).truth)^[steps] (.row 0) = .result true) ∧
        value = true) ∧
      ∃ value, evaluateClause sharing.tree.clause (.answers fun _ => .text "") = .ok value ∧
        (value = true ↔ ∃ steps, (Branch.next (TruthTable.answers fun _ => .text "").truth)^[steps] sharing.tree.onTrue =
          .result true) ∧
        value = false := by
  have operand : IsTest "b == 1 | x".toList :=
    .comparison .equals (show IsKey "b".toList by decide) (show IsOperand "1 | x".toList by decide)
  have all : ∀ row ∈ sharing.rows, IsTest row.atom.text.toList := by
    simp only [sharing, List.forall_mem_cons]
    exact ⟨isTest_letter (by decide), operand, isTest_letter (by decide), isTest_letter (by decide), nofun⟩
  have acyclic : sharing.Acyclic := Graph.acyclic_of_rising (by decide)
  have conforms : sharing.Conforms := fun index row _ found => all row (List.mem_of_getElem? found)
  have tree := acyclic.unfolds.conforms conforms .refl
  obtain ⟨yes, evaluated, _, walk⟩ := clause_walks.2 sharing acyclic conforms (.entries [("b == 1 | x", .int 7)])
  obtain ⟨no, refused, _, lost⟩ := clause_walks.1 sharing.tree tree (.answers fun _ => .text "")
  refine ⟨acyclic, conforms, tree, ⟨yes, evaluated, walk, walk.mpr ⟨4, rfl⟩⟩, no, refused, lost, ?_⟩
  rw [← Branch.decide_iff_walk] at lost
  exact Bool.eq_false_iff.mpr fun same => absurd (lost.mp same) (by decide)

end Extension.Decision
