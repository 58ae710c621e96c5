import Extension.Proofs.Clause.Evaluation
import Extension.Proofs.Decision.Report
import Extension.Proofs.Rule.Exploration

namespace Extension.Expression

open Decision Clause

/-! Compiling expressions of pure rules.

The clause that an expression compiles to reads back as an expression with the values that the rule returns,
whatever the truth values of its tests are.
-/

variable {σ : Type} {step : σ → Move σ} {environment : Environment} {expression : Expression σ} {settings : Settings}

/-- Each test that a rule makes can be written in a clause. -/
def TestsConform (step : σ → Move σ) (state : σ) : Prop :=
  ∀ answers test, deed? step state answers = some (.read test) → IsTest test.text.toList

theorem TestsConform.branch {state : σ} (tests : TestsConform step state) {depth : Nat} {branch : Branch}
    (agrees : branch.Agrees step state depth) : branch.Conforms := by
  induction branch generalizing state depth with
  | unresolved => exact trivial
  | result value => exact trivial
  | node atom onTrue onFalse trueIH falseIH =>
      obtain ⟨test, next, asks, rfl, trueSide, falseSide⟩ := agrees
      have below (answer : Bool) : TestsConform step (next answer) := by
        intro answers found does
        exact tests (answer :: answers) found (by rwa [deed?_read asks])
      have here : IsTest test.text.toList := tests [] test (by rw [deed?, asks, Move.deed])
      exact ⟨here, trueIH (below true) trueSide, falseIH (below false) falseSide⟩

/-- An expression of a pure rule that stays within the capacity compiles to the clause of its unfolding. -/
theorem compile_mirrors (current : expression.currentSettings environment = .ok settings)
    (pure : IsPure step fun earlier => expression.start (earlier + 1))
    (returns : ReturnsWithin step settings.maxAtoms (expression.start 1)) :
    ∃ tree, (expression.explore step environment).outcome = .ok tree ∧
      expression.compile step environment = .ok tree.clause ∧ Mirrors step (expression.start 1) tree := by
  cases ends current pure returns.neverRaises with
  | succeeds ok mirrors => exact ⟨_, ok, by rw [compile_eq, ok]; rfl, mirrors⟩
  | fails _ overreads => exact absurd returns overreads.not_returnsWithin

/-- Compiling succeeds, and the clause has the value that the rule returns under every truth assignment. -/
theorem compile_evaluates (current : expression.currentSettings environment = .ok settings)
    (pure : IsPure step fun earlier => expression.start (earlier + 1))
    (returns : ReturnsWithin step settings.maxAtoms (expression.start 1))
    (tests : TestsConform step (expression.start 1)) :
    ∃ clause expr, expression.compile step environment = .ok clause ∧ parse clause = .ok expr ∧
      ∀ truth, ∃ result, Returns step truth (expression.start 1) result ∧ evaluate expr truth = .ok result := by
  obtain ⟨tree, _, compiled, mirrors⟩ := compile_mirrors current pure returns
  obtain ⟨expr, read, means⟩ := Tree.clause_reads (tests.branch mirrors.agrees)
  refine ⟨tree.clause, expr, compiled, read, fun truth => ⟨tree.onTrue.decide truth, ?_, ?_⟩⟩
  · exact mirrors.agrees.returns mirrors.complete truth
  · rw [evaluate_eq_value, means]

theorem disjunction_compiles :
    ∃ clause expr, (disjunction 2 (by decide)).compile Script.move [] = .ok clause ∧ parse clause = .ok expr ∧
      ∀ truth, ∃ result, Returns Script.move truth ((disjunction 2 (by decide)).start 1) result ∧
        evaluate expr truth = .ok result := by
  have current : (disjunction 2 (by decide)).currentSettings [] = .ok _ := rfl
  have pure : IsPure Script.move fun earlier => (disjunction 2 (by decide)).start (earlier + 1) := fun _ _ _ => rfl
  have returns := (ends_succeeds current pure (disjunction_quiet (by decide)) rfl).2.1
  refine compile_evaluates current pure returns ?_
  intro answers test does
  rcases answers with _ | ⟨_ | _, _ | ⟨_ | _, _ | ⟨third, rest⟩⟩⟩ <;> cases does
  · exact isTest_letter (by decide)
  · exact isTest_letter (by decide)

/-- The clause is `true` just when every leaf is true and no node has further nodes on both sides, and empty
just when no leaf is true. -/
theorem compile_constant_iff (current : expression.currentSettings environment = .ok settings)
    (pure : IsPure step fun earlier => expression.start (earlier + 1))
    (returns : ReturnsWithin step settings.maxAtoms (expression.start 1))
    (tests : TestsConform step (expression.start 1)) :
    ∃ tree, (expression.explore step environment).outcome = .ok tree ∧
      (expression.compile step environment = .ok "true" ↔ (∀ leaf ∈ tree.leaves, leaf = true) ∧
        ∀ node ∈ tree.nodes, ¬ (node.onTrue.isNode = true ∧ node.onFalse.isNode = true)) ∧
      (expression.compile step environment = .ok "" ↔ ∀ leaf ∈ tree.leaves, leaf = false) ∧
      ∀ passes report, tree.report? settings.maxAtoms passes = some report →
        (report.alwaysTrue = true ↔ ∀ leaf ∈ tree.leaves, leaf = true) ∧
        (report.alwaysFalse = true ↔ ∀ leaf ∈ tree.leaves, leaf = false) := by
  obtain ⟨tree, ok, compiled, mirrors⟩ := compile_mirrors current pure returns
  obtain ⟨untouched, agrees, complete⟩ := mirrors
  have conforms := tests.branch agrees
  refine ⟨tree, ok, ?_, ?_, ?_⟩
  · rw [compiled, Except.ok.injEq, Tree.clause_eq_true conforms, Branch.unconditional_iff,
      Tree.everywhere_iff untouched complete, Tree.straight_iff untouched]
  · rw [compiled, Except.ok.injEq, Tree.clause_eq_empty conforms complete, Tree.everywhere_iff untouched complete]
  · intro passes report made
    exact Tree.report?_always made (Tree.leaves_ne_nil untouched complete)

/-- An expression that is true whatever its keys are, with further tests on both sides of the first. -/
def divided : Expression Script :=
  .ofRule "fn" (.choose (keyRule "a") (.any [keyRule "b", .const (.ok (.bool true))])
    (.any [keyRule "c", .const (.ok (.bool true))])) (some { maxAtoms := 2, positive := by decide })

def dividedTree : Tree where
  onTrue := .node ⟨"a", 1, "a"⟩ (.node ⟨"b", 2, "b"⟩ (.result true) (.result true))
    (.node ⟨"c", 2, "c"⟩ (.result true) (.result true))

/-- All leaves of the divided expression are true, but its clause is not the word `true`. -/
theorem divided_compile_ne_true :
    (divided.explore Script.move []).outcome = .ok dividedTree ∧ (∀ leaf ∈ dividedTree.leaves, leaf = true) ∧
      divided.compile Script.move [] ≠ .ok "true" := by
  have current : divided.currentSettings [] = .ok _ := rfl
  have pure : IsPure Script.move fun earlier => divided.start (earlier + 1) := fun _ _ _ => rfl
  have quiet : NeverRaises Script.move (divided.start 1) := by
    intro answers fault raised
    rcases answers with _ | ⟨_ | _, _ | ⟨_ | _, _ | ⟨third, rest⟩⟩⟩ <;> cases raised
  have explored : (divided.explore Script.move []).outcome = .ok dividedTree := rfl
  have returns := (ends_succeeds current pure quiet explored).2.1
  have tests : TestsConform Script.move (divided.start 1) := by
    intro answers test does
    rcases answers with _ | ⟨_ | _, _ | ⟨_ | _, _ | ⟨third, rest⟩⟩⟩ <;> cases does
    all_goals exact isTest_letter (by decide)
  obtain ⟨tree, ok, word, _⟩ := compile_constant_iff current pure returns tests
  obtain rfl : dividedTree = tree := Except.ok.inj (explored.symm.trans ok)
  refine ⟨explored, ?_, ?_⟩
  · simp [Tree.mem_leaves_iff, dividedTree, Branch.ends, End.below]
  · intro compiled
    have root : dividedTree.onTrue ∈ dividedTree.nodes := by
      rw [dividedTree.nodes_perm.mem_iff]
      exact List.mem_cons_self ..
    exact (word.mp compiled).2 _ root ⟨rfl, rfl⟩

end Extension.Expression
