import Extension.Proofs.Decision.Unfolding

namespace Extension.Expression

open Decision

/-! Exploring expressions.

An expression adds settings to a rule, and counts its calls.  For a pure rule neither matters beyond the
capacity: exploring succeeds just when the capacity is never exceeded, and gives the unfolding of the rule.
-/

variable {σ : Type} (step : σ → Move σ) {environment : Environment} {expression : Expression σ} {settings : Settings}

theorem explore_outcome (current : expression.currentSettings environment = .ok settings) :
    (expression.explore step environment).outcome =
      (Decision.explore step expression.start settings.maxAtoms expression.calls).outcome := by
  simp only [explore, current]
  cases (Decision.explore step expression.start settings.maxAtoms expression.calls).outcome <;> rfl

theorem explore_passes (current : expression.currentSettings environment = .ok settings) {tree : Tree}
    (ok : (expression.explore step environment).outcome = .ok tree) :
    (expression.explore step environment).expression.passes =
      (Decision.explore step expression.start settings.maxAtoms expression.calls).records.length := by
  rw [explore_outcome step current] at ok
  simp only [explore, current, ok]

theorem explore_records (current : expression.currentSettings environment = .ok settings) :
    (expression.explore step environment).records =
      (Decision.explore step expression.start settings.maxAtoms expression.calls).records := by
  simp only [explore, current]
  cases (Decision.explore step expression.start settings.maxAtoms expression.calls).outcome <;> rfl

/-- The passes that an expression counts are in one-to-one correspondence with the leaves of its tree. -/
theorem explore_exhausts (current : expression.currentSettings environment = .ok settings) {tree : Tree}
    (ok : (expression.explore step environment).outcome = .ok tree) :
    Exhausts step (fun records => expression.start (expression.calls + records.length + 1))
      (expression.explore step environment).records tree ∧
    (expression.explore step environment).expression.passes = tree.nodes.length + 1 := by
  rw [explore_passes step current ok, explore_records step current]
  rw [explore_outcome step current] at ok
  obtain ⟨rfl, empty⟩ := exploreFrom_ok ok
  have exhausts := (exploreFrom_reachable step _ _).sound.exhausts empty
  exact ⟨exhausts, exhausts.passes⟩

theorem passes_eq_leaves {tree : Tree} (ok : (expression.explore step environment).outcome = .ok tree) :
    (expression.explore step environment).expression.passes = tree.leaves.length := by
  cases current : expression.currentSettings environment with
  | error fault => simp [explore, current] at ok
  | ok settings =>
      obtain ⟨exhausts, passes⟩ := explore_exhausts step current ok
      rw [passes, ← exhausts.passes, exhausts.leaves]

theorem compile_eq (expression : Expression σ) (environment : Environment) :
    expression.compile step environment =
      (expression.explore step environment).outcome.map Tree.clause := by
  rw [compile]
  cases (expression.explore step environment).outcome <;> rfl

/-- What exploring an expression of a pure rule comes to. -/
inductive Ends (environment : Environment) (expression : Expression σ) (capacity : Nat) : Prop
  | succeeds {tree : Tree} (ok : (expression.explore step environment).outcome = .ok tree)
      (mirrors : Mirrors step (expression.start 1) tree)
      (returns : ReturnsWithin step capacity (expression.start 1))
      (passes : (expression.explore step environment).expression.passes = tree.size + 1)
  | fails {fault : Fault} (error : (expression.explore step environment).outcome = .error fault)
      (overreads : Overreads step capacity (expression.start 1) fault)

variable {step}

/-- Expressions whose rules cannot be told apart, in whichever calls, are explored alike. -/
theorem explore_congr {τ : Type} {other : τ → Move τ} {second : Expression τ}
    (settings : second.settings = expression.settings)
    (same : ∀ earlier later answers,
      deed? step (expression.start (earlier + 1)) answers = deed? other (second.start (later + 1)) answers) :
    (expression.explore step environment).outcome = (second.explore other environment).outcome := by
  have loaded : second.currentSettings environment = expression.currentSettings environment := by
    rw [currentSettings, currentSettings, settings]
  cases current : expression.currentSettings environment with
  | error fault =>
      rw [current] at loaded
      simp only [explore, current, loaded]
  | ok settings =>
      rw [explore_outcome step current, explore_outcome other (loaded.trans current)]
      exact congrArg Exploration.outcome (exploreFrom_congr (fun records => same _ _) settings.maxAtoms)

theorem ends (current : expression.currentSettings environment = .ok settings)
    (pure : IsPure step fun earlier => expression.start (earlier + 1))
    (quiet : NeverRaises step (expression.start 1)) : Ends step environment expression settings.maxAtoms := by
  have outcome := explore_outcome step current
  have passes {tree : Tree} (ok : (expression.explore step environment).outcome = .ok tree) :=
    explore_passes step current ok
  rw [pure.explore_eq] at outcome passes
  cases quiet.explores settings.maxAtoms with
  | succeeds ok mirrors returns counted =>
      rw [ok] at outcome
      exact .succeeds outcome mirrors returns (by rw [passes outcome, counted])
  | fails error overreads => exact .fails (by rw [outcome, error]) overreads

theorem ends_succeeds (current : expression.currentSettings environment = .ok settings)
    (pure : IsPure step fun earlier => expression.start (earlier + 1)) (quiet : NeverRaises step (expression.start 1))
    {tree : Tree} (ok : (expression.explore step environment).outcome = .ok tree) :
    Mirrors step (expression.start 1) tree ∧ ReturnsWithin step settings.maxAtoms (expression.start 1) ∧
      (expression.explore step environment).expression.passes = tree.size + 1 := by
  cases ends current pure quiet with
  | succeeds found mirrors returns passes =>
      rw [ok] at found
      cases found
      exact ⟨mirrors, returns, passes⟩
  | fails error overreads =>
      rw [ok] at error
      cases error

/-- The explored tree is the unfolding of the rule, and the capacity is exact. -/
theorem explore_unfolds (current : expression.currentSettings environment = .ok settings)
    (pure : IsPure step fun earlier => expression.start (earlier + 1))
    (quiet : NeverRaises step (expression.start 1)) :
    ((∃ tree, (expression.explore step environment).outcome = .ok tree) ↔
      ReturnsWithin step settings.maxAtoms (expression.start 1)) ∧
    (∀ tree, (expression.explore step environment).outcome = .ok tree →
      Unfolds step (expression.start 1) tree) ∧
    (¬ ReturnsWithin step settings.maxAtoms (expression.start 1) →
      ∃ fault, (expression.explore step environment).outcome = .error fault ∧
        Overreads step settings.maxAtoms (expression.start 1) fault) ∧
    (∀ tree, (expression.explore step environment).outcome = .ok tree →
      ∀ (again : Expression σ) (there : Environment) (larger : Settings), again.start = expression.start →
        again.currentSettings there = .ok larger → settings.maxAtoms ≤ larger.maxAtoms →
        (again.explore step there).outcome = .ok tree ∧
        (again.explore step there).expression.passes = (expression.explore step environment).expression.passes ∧
        again.compile step there = expression.compile step environment) := by
  refine ⟨⟨?_, ?_⟩, ?_, ?_, ?_⟩
  · rintro ⟨tree, ok⟩
    exact (ends_succeeds current pure quiet ok).2.1
  · intro returns
    cases ends current pure quiet with
    | succeeds ok => exact ⟨_, ok⟩
    | fails _ overreads => exact absurd returns overreads.not_returnsWithin
  · intro tree ok
    exact (ends_succeeds current pure quiet ok).1.unfolds
  · intro exceeds
    cases ends current pure quiet with
    | succeeds _ _ returns => exact absurd returns exceeds
    | fails error overreads => exact ⟨_, error, overreads⟩
  · intro tree ok again there larger same currentThere more
    obtain ⟨mirrors, returns, passes⟩ := ends_succeeds current pure quiet ok
    rw [← same] at pure quiet mirrors returns
    cases ends currentThere pure quiet with
    | fails _ overreads => exact absurd (returns.mono more) overreads.not_returnsWithin
    | succeeds okThere mirrorsThere _ passesThere =>
        obtain rfl := mirrorsThere.unique mirrors
        exact ⟨okThere, by rw [passes, passesThere], by rw [compile_eq, compile_eq, ok, okThere]⟩

def disjunction (maxAtoms : Nat) (positive : 0 < maxAtoms) : Expression Script :=
  .ofRule "fn" (.any [keyRule "a", keyRule "b"]) (some { maxAtoms, positive })

theorem disjunction_quiet {maxAtoms : Nat} (positive : 0 < maxAtoms) :
    NeverRaises Script.move ((disjunction maxAtoms positive).start 1) := by
  intro answers fault raised
  rcases answers with _ | ⟨_ | _, _ | ⟨_ | _, _ | ⟨third, rest⟩⟩⟩ <;> cases raised

theorem disjunction_unfolds :
    ∃ tree, Unfolds Script.move ((disjunction 2 (by decide)).start 1) tree ∧
      ((disjunction 5 (by decide)).explore Script.move []).outcome = .ok tree := by
  have unfolds := explore_unfolds (rfl : (disjunction 2 (by decide)).currentSettings [] = .ok _)
    (fun _ _ _ => rfl) (disjunction_quiet (by decide))
  refine ⟨_, unfolds.2.1 _ rfl, ?_⟩
  exact (unfolds.2.2.2 _ rfl (disjunction 5 (by decide)) [] _ rfl rfl (by decide)).1

end Extension.Expression
