import Extension.Decision.Exploration
import Extension.Proofs.Decision.Ends

namespace Extension.Decision

/-! What a rule does, as it can be seen from outside.

A rule is known by what it does after each sequence of answers.  Two states that cannot be told apart in this
way give the same passes, so a pure rule may be taken to start every call in one state.
-/

variable {σ ι : Type} (step : σ → Move σ)

/-- Starting in one state, a rule makes the tests of a trail, is given its answers, and arrives in another. -/
inductive Reads : σ → Trail → σ → Prop
  | nil {state : σ} : Reads state [] state
  | cons {state last : σ} {test : Test} {next : Bool → σ} {answer : Bool} {rest : Trail}
      (asks : step state = .read test next) (tail : Reads (next answer) rest last) :
      Reads state ((test.text, answer) :: rest) last

/-- A whole run of a rule: the tests it makes, the answers it is given, and what its value counts as. -/
def Runs (state : σ) (trail : Trail) (result : Bool) : Prop :=
  ∃ last value, Reads step state trail last ∧ step last = .finish value ∧ value.truthy = result

/-- With its tests answered by a truth assignment, the rule returns a value that counts as the result. -/
def Returns (truth : String → Bool) (state : σ) (result : Bool) : Prop :=
  ∃ trail, Runs step state trail result ∧ ∀ met ∈ trail, met.2 = truth met.1

inductive Deed where
  | read (test : Test)
  | finish (value : Value)
  | raise (fault : Fault)

def Move.deed : Move σ → Deed
  | .read test _ => .read test
  | .finish value => .finish value
  | .raise fault => .raise fault

/-- What a rule does after the given answers, unless it has ended before. -/
def deed? : σ → List Bool → Option Deed
  | state, [] => some (step state).deed
  | state, answer :: answers =>
      match step state with
      | .read _ next => deed? (next answer) answers
      | _ => none
termination_by structural _ answers => answers

/-- What the rule does is determined by the answers alone, in whichever call it is given them. -/
def IsPure (start : ι → σ) : Prop :=
  ∀ first second answers, deed? step (start first) answers = deed? step (start second) answers

/-- After no sequence of answers does the rule raise a fault of its own. -/
def NeverRaises (state : σ) : Prop :=
  ∀ answers fault, deed? step state answers ≠ some (.raise fault)

/-- Whatever the answers are, the rule returns a value after at most `count` tests. -/
def ReturnsWithin (count : Nat) (state : σ) : Prop :=
  ∀ answers : List Bool, answers.length = count →
    ∃ reads ≤ count, ∃ value, deed? step state (answers.take reads) = some (.finish value)

variable {step}

theorem Reads.append {first middle last : σ} {trail more : Trail}
    (head : Reads step first trail middle) (tail : Reads step middle more last) :
    Reads step first (trail ++ more) last := by
  induction head with
  | nil => exact tail
  | cons asks _ ih => exact .cons asks (ih tail)

theorem Reads.deed? {state last : σ} {trail : Trail} (reads : Reads step state trail last)
    (answers : List Bool) :
    deed? step state (trail.answers ++ answers) = Decision.deed? step last answers := by
  induction reads with
  | nil => rfl
  | cons asks _ ih =>
      rw [Trail.answers_cons, List.cons_append, Decision.deed?, asks]
      exact ih

theorem deed?_read {state : σ} {test : Test} {next : Bool → σ} (asks : step state = .read test next)
    (answer : Bool) (answers : List Bool) :
    deed? step state (answer :: answers) = deed? step (next answer) answers := by
  rw [deed?, asks]

theorem Reads.deed?_eq {state last : σ} {trail : Trail} (reads : Reads step state trail last) :
    Decision.deed? step state trail.answers = some (step last).deed := by
  have seen := reads.deed? []
  rwa [List.append_nil] at seen

theorem Reads.of_deed? {state : σ} {answers : List Bool} {deed : Deed}
    (does : Decision.deed? step state answers = some deed) :
    ∃ trail last, Reads step state trail last ∧ trail.answers = answers ∧ (step last).deed = deed := by
  induction answers generalizing state with
  | nil => exact ⟨[], state, .nil, rfl, Option.some.inj does⟩
  | cons answer answers ih =>
      cases move : step state with
      | read test next =>
          rw [deed?_read move] at does
          obtain ⟨trail, last, reads, given, done⟩ := ih does
          exact ⟨(test.text, answer) :: trail, last, .cons move reads, by rw [Trail.answers_cons, given], done⟩
      | finish value => simp [Decision.deed?, move] at does
      | raise fault => simp [Decision.deed?, move] at does

theorem ReturnsWithin.next {count : Nat} {state : σ} {test : Test} {next : Bool → σ}
    (returns : ReturnsWithin step (count + 1) state) (asks : step state = .read test next) (answer : Bool) :
    ReturnsWithin step count (next answer) := by
  intro answers length
  obtain ⟨reads, few, value, finished⟩ := returns (answer :: answers) (by simp [length])
  cases reads with
  | zero => simp [deed?, asks, Move.deed] at finished
  | succ reads =>
      rw [List.take_succ_cons, deed?_read asks] at finished
      exact ⟨reads, by omega, value, finished⟩

theorem ReturnsWithin.along {count : Nat} {state last : σ} {trail : Trail}
    (returns : ReturnsWithin step (trail.length + count) state) (reads : Reads step state trail last) :
    ReturnsWithin step count last := by
  induction reads with
  | nil => rwa [List.length_nil, Nat.zero_add] at returns
  | cons asks _ ih =>
      rw [List.length_cons, Nat.add_right_comm] at returns
      exact ih (returns.next asks _)

theorem ReturnsWithin.not_raise {count : Nat} {state : σ} (returns : ReturnsWithin step count state)
    (fault : Fault) : step state ≠ .raise fault := by
  intro raises
  obtain ⟨reads, _, value, finished⟩ := returns (List.replicate count false) List.length_replicate
  cases taken : (List.replicate count false).take reads <;>
    simp [taken, deed?, raises, Move.deed] at finished

theorem ReturnsWithin.finish {state : σ} (returns : ReturnsWithin step 0 state) :
    ∃ value, step state = .finish value := by
  obtain ⟨reads, few, value, finished⟩ := returns [] rfl
  rw [List.take_nil] at finished
  cases move : step state <;> simp [deed?, move, Move.deed] at finished
  exact ⟨_, rfl⟩

theorem ReturnsWithin.neverRaises {count : Nat} {state : σ} (returns : ReturnsWithin step count state) :
    NeverRaises step state := by
  intro answers fault
  induction answers generalizing count state with
  | nil =>
      intro raised
      cases move : step state <;> simp [deed?, move, Move.deed] at raised
      exact returns.not_raise _ move
  | cons answer answers ih =>
      cases move : step state with
      | finish value => simp [deed?, move]
      | raise fault => exact absurd move (returns.not_raise fault)
      | read test next =>
          rw [deed?_read move]
          cases count with
          | zero =>
              obtain ⟨value, ends⟩ := returns.finish
              rw [move] at ends
              cases ends
          | succ count => exact ih (returns.next move answer)

theorem ReturnsWithin.of_finish {state : σ} {value : Value} (ends : step state = .finish value)
    (count : Nat) : ReturnsWithin step count state := by
  intro answers _
  exact ⟨0, Nat.zero_le _, value, by simp [deed?, ends, Move.deed]⟩

theorem ReturnsWithin.of_read {count : Nat} {state : σ} {test : Test} {next : Bool → σ}
    (asks : step state = .read test next) (returns : ∀ answer, ReturnsWithin step count (next answer)) :
    ReturnsWithin step (count + 1) state := by
  intro answers length
  cases answers with
  | nil => simp at length
  | cons answer answers =>
      obtain ⟨reads, few, value, finished⟩ := returns answer answers (by simpa using length)
      exact ⟨reads + 1, by omega, value, by rwa [List.take_succ_cons, deed?_read asks]⟩

theorem ReturnsWithin.mono {count more : Nat} {state : σ} (returns : ReturnsWithin step count state)
    (fewer : count ≤ more) : ReturnsWithin step more state := by
  intro answers length
  obtain ⟨reads, few, value, finished⟩ := returns (answers.take count) (by simp [length, fewer])
  rw [List.take_take, Nat.min_eq_left few] at finished
  exact ⟨reads, Nat.le_trans few fewer, value, finished⟩

/-- States that cannot be told apart, also of different rules, make the same moves, into states that cannot be told
apart. -/
theorem move_cases {τ : Type} {other : τ → Move τ} {first : σ} {second : τ}
    (same : ∀ answers, deed? step first answers = deed? other second answers) :
    (∃ test firstNext secondNext, step first = .read test firstNext ∧ other second = .read test secondNext ∧
      ∀ answer answers, deed? step (firstNext answer) answers = deed? other (secondNext answer) answers) ∨
    (∃ value, step first = .finish value ∧ other second = .finish value) ∨
    (∃ fault, step first = .raise fault ∧ other second = .raise fault) := by
  have now := same []
  cases left : step first with
  | read test firstNext =>
      cases right : other second <;> simp [deed?, left, right, Move.deed] at now
      subst now
      refine .inl ⟨_, _, _, rfl, rfl, fun answer answers => ?_⟩
      rw [← deed?_read left, ← deed?_read right, same]
  | finish value =>
      cases right : other second <;> simp [deed?, left, right, Move.deed] at now
      subst now
      exact .inr (.inl ⟨_, rfl, rfl⟩)
  | raise fault =>
      cases right : other second <;> simp [deed?, left, right, Move.deed] at now
      subst now
      exact .inr (.inr ⟨_, rfl, rfl⟩)

theorem runPass_raise {state : σ} {fault : Fault} (raises : step state = .raise fault) (budget : Nat)
    (tree : Tree) (pass : Pass) : runPass step budget state tree pass = .error fault := by
  unfold runPass
  rw [raises]

theorem runPass_finish {state : σ} {value : Value} (ends : step state = .finish value) (budget : Nat)
    (tree : Tree) (pass : Pass) :
    runPass step budget state tree pass =
      (pass.resolve tree value.truthy).map fun resolved => (resolved, pass, value.truthy) := by
  unfold runPass
  simp only [ends]
  cases pass.resolve tree value.truthy <;> rfl

theorem runPass_refused {state : σ} {test : Test} {next : Bool → σ} {tree : Tree} {pass : Pass} {fault : Fault}
    (asks : step state = .read test next) (refused : pass.read tree test = .error fault) (budget : Nat) :
    runPass step budget state tree pass = .error fault := by
  unfold runPass
  simp only [asks, refused]

theorem runPass_answered {state : σ} {test : Test} {next : Bool → σ} {tree : Tree} {pass : Pass}
    {answered : Answered} (asks : step state = .read test next) (read : pass.read tree test = .ok answered)
    (budget : Nat) :
    runPass step (budget + 1) state tree pass =
      runPass step budget (next answered.answer) answered.tree answered.pass := by
  rw [runPass]
  simp only [asks, read]

theorem runPass_exhausted {state : σ} {test : Test} {next : Bool → σ} {tree : Tree} {pass : Pass}
    {answered : Answered} (asks : step state = .read test next) (read : pass.read tree test = .ok answered) :
    runPass step 0 state tree pass = .error (.tooDeep test.text pass.nextDepth pass.capacity) := by
  unfold runPass
  simp only [asks, read]

theorem runPass_congr {τ : Type} {other : τ → Move τ} {first : σ} {second : τ}
    (same : ∀ answers, deed? step first answers = deed? other second answers) (budget : Nat) (tree : Tree)
    (pass : Pass) : runPass step budget first tree pass = runPass other budget second tree pass := by
  induction budget generalizing first second tree pass with
  | zero =>
      rcases move_cases same with ⟨test, _, _, left, right, _⟩ | ⟨_, left, right⟩ | ⟨_, left, right⟩
      · cases read : pass.read tree test with
        | error fault => rw [runPass_refused left read, runPass_refused right read]
        | ok answered => rw [runPass_exhausted left read, runPass_exhausted right read]
      · rw [runPass_finish left, runPass_finish right]
      · rw [runPass_raise left, runPass_raise right]
  | succ budget ih =>
      rcases move_cases same with ⟨test, _, _, left, right, next⟩ | ⟨_, left, right⟩ | ⟨_, left, right⟩
      · cases read : pass.read tree test with
        | error fault => rw [runPass_refused left read, runPass_refused right read]
        | ok answered =>
            rw [runPass_answered left read, runPass_answered right read]
            exact ih (next answered.answer) answered.tree answered.pass
      · rw [runPass_finish left, runPass_finish right]
      · rw [runPass_raise left, runPass_raise right]

theorem exploreFrom_congr {τ : Type} {other : τ → Move τ} {first : List PassRecord → σ} {second : List PassRecord → τ}
    (same : ∀ records answers, deed? step (first records) answers = deed? other (second records) answers)
    (capacity : Nat) : exploreFrom step first capacity = exploreFrom other second capacity := by
  have advanced : advance step first capacity = advance other second capacity := by
    funext exploration
    unfold advance
    cases exploration.queue with
    | nil => rfl
    | cons assignment queue => simp only [runPass_congr (same exploration.records)]
  rw [exploreFrom, exploreFrom, advanced]

/-- A pure rule may be taken to start every call in the state in which it starts the first. -/
theorem IsPure.explore_eq {start : Nat → σ} (pure : IsPure step fun earlier => start (earlier + 1))
    (capacity calls : Nat) :
    explore step start capacity calls = exploreFrom step (fun _ => start 1) capacity := by
  refine exploreFrom_congr (fun records answers => ?_) capacity
  exact pure (calls + records.length) 0 answers

end Extension.Decision
