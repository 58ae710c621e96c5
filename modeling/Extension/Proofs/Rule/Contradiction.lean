import Extension.Proofs.Rule.Exploration

namespace Extension

open Decision

/-! Rules that go wrong only where their answers contradict one another.

Each test of a pass is answered by its own bit of the assignment, also a test that the pass has made before.  So a
rule is explored under answers that no truth assignment gives, and this is where a rule may fail that returns under
each of them.
-/

namespace Decision

/-- Some test of the trail has been answered both ways. -/
def Trail.Contradicted (trail : Trail) : Prop :=
  ∃ text, (text, true) ∈ trail ∧ (text, false) ∈ trail

variable {σ : Type} (step : σ → Move σ)

/-- With its tests answered by a truth assignment, the rule returns after at most so many of them. -/
def ReturnsUnder (truth : String → Bool) (count : Nat) (state : σ) : Prop :=
  ∃ trail result, Runs step state trail result ∧ (∀ met ∈ trail, met.2 = truth met.1) ∧ trail.length ≤ count

variable {step}

/-- A trail that is not contradicted is answered by a truth assignment. -/
theorem Trail.answered_of_not_contradicted {trail : Trail} (consistent : ¬ trail.Contradicted) :
    ∃ truth : String → Bool, ∀ met ∈ trail, met.2 = truth met.1 := by
  refine ⟨fun text => decide ((text, true) ∈ trail), fun met member => ?_⟩
  obtain ⟨text, answer⟩ := met
  cases answer with
  | true => simp [member]
  | false =>
      have other : (text, true) ∉ trail := fun both => consistent ⟨text, both, member⟩
      simp [other]

theorem ReturnsUnder.next {truth : String → Bool} {count : Nat} {state : σ} {test : Test} {next : Bool → σ}
    (returns : ReturnsUnder step truth count state) (asks : step state = .read test next) :
    0 < count ∧ ReturnsUnder step truth (count - 1) (next (truth test.text)) := by
  obtain ⟨trail, result, ⟨last, value, reads, ends, truthy⟩, answered, few⟩ := returns
  cases reads with
  | nil =>
      rw [asks] at ends
      cases ends
  | @cons _ _ met follow answer rest asked tail =>
      rw [asks] at asked
      cases asked
      obtain ⟨first, later⟩ := List.forall_mem_cons.mp answered
      have first : answer = truth test.text := first
      rw [List.length_cons] at few
      subst first
      exact ⟨by omega, rest, result, ⟨last, value, tail, ends, truthy⟩, later, by omega⟩

/-- Where a rule comes to under a truth assignment, it goes on to return. -/
theorem ReturnsUnder.along {truth : String → Bool} {count : Nat} {state last : σ} {trail : Trail}
    (returns : ReturnsUnder step truth count state) (reads : Reads step state trail last)
    (answered : ∀ met ∈ trail, met.2 = truth met.1) :
    trail.length ≤ count ∧ ReturnsUnder step truth (count - trail.length) last := by
  induction reads generalizing count with
  | nil => exact ⟨Nat.zero_le _, returns⟩
  | @cons state last test next answer rest asks _ ih =>
      obtain ⟨first, later⟩ := List.forall_mem_cons.mp answered
      have first : answer = truth test.text := first
      subst first
      obtain ⟨positive, after⟩ := returns.next asks
      obtain ⟨few, there⟩ := ih after later
      rw [List.length_cons]
      exact ⟨by omega, by rwa [Nat.sub_sub, Nat.add_comm 1] at there⟩

/-- A rule that returns under every truth assignment breaks off only where its answers are contradicted. -/
theorem Breaks.contradicted {state : σ} {capacity : Nat} {trail : Trail} {fault : Fault}
    (breaks : Breaks step capacity state trail fault)
    (returns : ∀ truth, ReturnsUnder step truth capacity state) : trail.Contradicted := by
  refine Classical.byContradiction fun consistent => ?_
  obtain ⟨truth, answered⟩ := Trail.answered_of_not_contradicted consistent
  cases breaks with
  | raises reads raises =>
      obtain ⟨_, rest, result, ⟨last, value, tail, ends, _⟩, _⟩ := (returns truth).along reads answered
      cases tail with
      | nil =>
          rw [raises] at ends
          cases ends
      | cons asks =>
          rw [raises] at asks
          cases asks
  | overreads reads full asks =>
      obtain ⟨_, after⟩ := (returns truth).along reads answered
      obtain ⟨positive, _⟩ := after.next asks
      omega

theorem Breaks.not_returnsWithin {state : σ} {capacity : Nat} {trail : Trail} {fault : Fault}
    (breaks : Breaks step capacity state trail fault) : ¬ ReturnsWithin step capacity state := by
  intro returns
  cases breaks with
  | raises reads raises =>
      have raised := reads.deed?_eq
      rw [raises] at raised
      exact returns.neverRaises _ _ raised
  | overreads reads full asks =>
      rw [← full, ← Nat.add_zero trail.length] at returns
      obtain ⟨value, ends⟩ := (returns.along reads).finish
      rw [asks] at ends
      cases ends

end Decision

namespace Expression

variable {σ : Type} {step : σ → Move σ} {environment : Environment} {expression : Expression σ} {settings : Settings}

/-- A pure rule that returns under every truth assignment is explored just when it breaks off under no answers that
contradict one another.  When the exploration fails, such answers have led to its fault. -/
theorem explore_fails_only_contradicted (current : expression.currentSettings environment = .ok settings)
    (pure : IsPure step fun earlier => expression.start (earlier + 1))
    (returns : ∀ truth, ReturnsUnder step truth settings.maxAtoms (expression.start 1)) :
    ((∃ tree, (expression.explore step environment).outcome = .ok tree) ↔
      ∀ (trail : Trail) fault, trail.Contradicted → ¬ Breaks step settings.maxAtoms (expression.start 1) trail fault) ∧
    ∀ fault, (expression.explore step environment).outcome = .error fault →
      ∃ trail : Trail, trail.Contradicted ∧ Breaks step settings.maxAtoms (expression.start 1) trail fault := by
  rw [explore_outcome step current, pure.explore_eq]
  have fails {fault : Fault} (error : (exploreFrom step (fun _ => expression.start 1) settings.maxAtoms).outcome =
      .error fault) :
      ∃ trail : Trail, trail.Contradicted ∧ Breaks step settings.maxAtoms (expression.start 1) trail fault := by
    obtain ⟨trail, breaks⟩ := exploreFrom_breaks error
    exact ⟨trail, breaks.contradicted returns, breaks⟩
  refine ⟨⟨?_, ?_⟩, fun fault => fails⟩
  · rintro ⟨tree, ok⟩ trail fault _ breaks
    exact breaks.not_returnsWithin (exploreFrom_mirrors ok).2.1
  · intro whole
    cases outcome : (exploreFrom step (fun _ => expression.start 1) settings.maxAtoms).outcome with
    | ok tree => exact ⟨tree, rfl⟩
    | error fault =>
        obtain ⟨trail, contradicted, breaks⟩ := fails outcome
        exact absurd breaks (whole trail fault contradicted)

/-- A rule that tests one key twice, and raises an error where it is set first and then not. -/
def wavering : Expression Script :=
  .ofRule "fn" (.choose (keyRule "a") (.choose (keyRule "a") (.const (.ok (.bool true)))
    (.raise ⟨.value, "unreachable"⟩)) (.const (.ok (.bool false)))) (some { maxAtoms := 2, positive := Nat.two_pos })

theorem wavering_returnsUnder (truth : String → Bool) : ReturnsUnder Script.move truth 2 (wavering.start 1) := by
  let key : Test := ⟨"a", "a"⟩
  cases set : truth "a" with
  | true =>
      have reads : Reads Script.move (wavering.start 1) [(key.text, true), (key.text, true)] (.finish (.bool true)) :=
        .cons rfl (.cons rfl .nil)
      exact ⟨_, true, ⟨_, _, reads, rfl, rfl⟩, by simp [key, set], Nat.le_refl _⟩
  | false =>
      have reads : Reads Script.move (wavering.start 1) [(key.text, false)] (.finish (.bool false)) := .cons rfl .nil
      exact ⟨_, false, ⟨_, _, reads, rfl, rfl⟩, by simp [key, set], Nat.le_succ _⟩

/-- Whatever is set, it returns after at most two tests, but exploring it fails. -/
theorem wavering_not_explored :
    (IsPure Script.move fun earlier => wavering.start (earlier + 1)) ∧
    (∀ truth, ReturnsUnder Script.move truth 2 (wavering.start 1)) ∧
    (wavering.explore Script.move []).outcome = .error (.raised ⟨.value, "unreachable"⟩) :=
  ⟨fun _ _ _ => rfl, wavering_returnsUnder, rfl⟩

/-- The fault of the wavering rule comes from answers that contradict one another. -/
theorem wavering_contradicted :
    ∃ trail : Trail, trail.Contradicted ∧
      Breaks Script.move 2 (wavering.start 1) trail (.raised ⟨.value, "unreachable"⟩) := by
  have current : wavering.currentSettings [] = .ok _ := rfl
  have pure : IsPure Script.move fun earlier => wavering.start (earlier + 1) := fun _ _ _ => rfl
  exact (explore_fails_only_contradicted current pure wavering_returnsUnder).2 _ rfl

end Expression

end Extension
