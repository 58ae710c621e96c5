import Extension.Proofs.Decision.Exhaustion
import Extension.Proofs.Decision.Schedule

namespace Extension.Decision

/-! Whole passes in any order.

Every schedule can be played, and played out until all its passes have returned.  What the tree holds then is
what the rule unfolds to on the paths that the assignments force, whatever the order of the turns was.
-/

variable {σ ι : Type} {step : σ → Move σ}

/-- What a rule does is all that its runs depend on. -/
theorem Reads.congr {first last second : σ} {trail : Trail} (reads : Reads step first trail last)
    (same : ∀ answers, Decision.deed? step first answers = Decision.deed? step second answers) :
    ∃ other, Reads step second trail other ∧
      ∀ answers, Decision.deed? step last answers = Decision.deed? step other answers := by
  induction reads generalizing second with
  | nil => exact ⟨second, .nil, same⟩
  | cons asks _ ih =>
      rcases move_cases same with ⟨test, next, otherNext, left, right, after⟩ | ⟨_, left, _⟩ | ⟨_, left, _⟩
      · cases asks.symm.trans left
        obtain ⟨other, tail, alike⟩ := ih (after _)
        exact ⟨other, .cons right tail, alike⟩
      · cases asks.symm.trans left
      · cases asks.symm.trans left

theorem Runs.congr {first second : σ} {trail : Trail} {result : Bool} (runs : Runs step first trail result)
    (same : ∀ answers, deed? step first answers = deed? step second answers) : Runs step second trail result := by
  obtain ⟨last, value, reads, ends, truthy⟩ := runs
  obtain ⟨other, otherReads, alike⟩ := reads.congr same
  rcases move_cases alike with ⟨_, _, _, left, _⟩ | ⟨_, left, right⟩ | ⟨_, left, _⟩
  · cases ends.symm.trans left
  · cases ends.symm.trans left
    exact ⟨other, _, otherReads, right, truthy⟩
  · cases ends.symm.trans left

theorem Runs.beyond {state : σ} {trail : Trail} {result : Bool} (runs : Runs step state trail result)
    (answer : Bool) (more : List Bool) : deed? step state (trail.answers ++ answer :: more) = none := by
  obtain ⟨last, value, reads, ends, _⟩ := runs
  rw [reads.deed?, deed?, ends]

namespace Round

theorem play_append (start : ι → σ) (capacity : Int) {round middle : Round σ} {turns : List (Turn ι)}
    (played : round.play step start capacity turns = .ok middle) (more : List (Turn ι)) :
    round.play step start capacity (turns ++ more) = middle.play step start capacity more := by
  induction turns generalizing round with
  | nil =>
      cases played
      rfl
  | cons turn turns ih =>
      rw [play] at played
      rw [List.cons_append, play]
      cases taken : round.take step start capacity turn with
      | error fault =>
          rw [taken] at played
          cases played
      | ok next =>
          rw [taken] at played
          exact ih played

variable {round : Round σ}

/-- The passes before this one have returned. -/
def EndedUpTo (round : Round σ) (count : Nat) : Prop :=
  ∀ number < count, ∀ progress, round.calls[number]? = some progress → ∃ result, progress = .returned result

theorem EndedUpTo.complete (ended : EndedUpTo round round.calls.length) : round.Complete := by
  intro progress member
  obtain ⟨number, bound, here⟩ := List.getElem_of_mem member
  exact ended number bound progress (List.getElem?_eq_some_iff.mpr ⟨bound, here⟩)

theorem EndedUpTo.next {after : Round σ} {count : Nat} {result : Bool} (ended : EndedUpTo round count)
    (calls : after.calls = round.calls.set count (.returned result)) : EndedUpTo after (count + 1) := by
  intro number earlier progress here
  rw [calls, List.getElem?_set] at here
  split at here
  · split at here <;> cases here
    exact ⟨result, rfl⟩
  · next differs => exact ended number (by omega) progress here

theorem EndedUpTo.skip {count : Nat} (ended : EndedUpTo round count)
    (idle : ∀ state, round.calls[count]? ≠ some (.running state)) : EndedUpTo round (count + 1) := by
  intro number earlier progress here
  by_cases last : number = count
  · subst last
    cases progress with
    | running state => exact absurd here (idle state)
    | returned result => exact ⟨result, rfl⟩
  · exact ended number (by omega) progress here

end Round

/-- The turns that give one pass so many moves. -/
def drive (number count : Nat) : List (Turn ι) :=
  List.replicate count (.move number)

@[simp] theorem entered_drive (number count : Nat) : entered (drive number count : List (Turn ι)) = [] := by
  simp [entered, drive]

namespace Faithful

variable {start : ι → σ} {first : ι} {capacity : Int} {round : Round σ} {number : Nat} {pass : Pass}

theorem driven_finish (faithful : Faithful step start first capacity round) (pure : IsPure step start) {state : σ}
    (has : round.Has number pass (.running state)) {value : Value} (ends : step state = .finish value) :
    ∃ count after result, round.play step start capacity (drive number count) = .ok after ∧
      Faithful step start first capacity after ∧ after.calls = round.calls.set number (.returned result) := by
  obtain ⟨grown, resolved, kept⟩ := faithful.finishes pure has ends
  refine ⟨1, _, _, ?_, kept, rfl⟩
  simp only [drive, List.replicate_one, Round.play, Round.take, Round.move, has.2, ends, resolved]

/-- A running pass that is given its turns returns. -/
theorem driven (faithful : Faithful step start first capacity round) (pure : IsPure step start) {limit : Nat}
    (returns : ReturnsWithin step limit (start first)) (room : (limit : Int) ≤ capacity) {state : σ} {left : Nat}
    (ends : ReturnsWithin step left state) (has : round.Has number pass (.running state)) :
    ∃ count after result, round.play step start capacity (drive number count) = .ok after ∧
      Faithful step start first capacity after ∧ after.calls = round.calls.set number (.returned result) := by
  -- By the number of tests that the call can still make.
  induction left generalizing round pass state with
  | zero =>
      obtain ⟨value, finish⟩ := ends.finish
      exact faithful.driven_finish pure has finish
  | succ left ih =>
      cases taken : step state with
      | raise fault => exact absurd taken (ends.not_raise fault)
      | finish value => exact faithful.driven_finish pure has taken
      | read test next =>
          obtain ⟨answer, shared, read, kept, _⟩ := faithful.asks pure returns room has taken
          obtain ⟨bound, _⟩ := List.getElem?_eq_some_iff.mp has.2
          obtain ⟨_, moved⟩ := kept.has (List.getElem?_set_self bound)
          obtain ⟨count, after, result, played, stays, ended⟩ := ih kept (ends.next taken answer) moved
          refine ⟨count + 1, after, result, ?_, stays, by rw [ended, List.set_set]⟩
          have turned : round.move step number =
              .ok { shared, calls := round.calls.set number (.running (next answer)) } := by
            simp only [Round.move, has.2, taken, read]
          simp only [drive, List.replicate_succ, Round.play, Round.take, turned]
          exact played

theorem played_upTo (faithful : Faithful step start first capacity round) (pure : IsPure step start) {limit : Nat}
    (returns : ReturnsWithin step limit (start first)) (room : (limit : Int) ≤ capacity) (count : Nat) :
    ∃ more done, round.play step start capacity more = .ok done ∧ entered more = [] ∧
      Faithful step start first capacity done ∧ done.calls.length = round.calls.length ∧ done.EndedUpTo count := by
  induction count with
  | zero => exact ⟨[], round, rfl, rfl, faithful, rfl, fun number before => absurd before (Nat.not_lt_zero number)⟩
  | succ count ih =>
      obtain ⟨more, done, played, opened, kept, length, ended⟩ := ih
      by_cases running : ∃ state, done.calls[count]? = some (.running state)
      · obtain ⟨state, standing⟩ := running
        obtain ⟨pass, has⟩ := kept.has standing
        obtain ⟨call, reads⟩ := kept.reads has
        have longer := (pure.returnsWithin returns call).mono (Nat.le_add_left limit pass.transcript.length)
        obtain ⟨turns, after, result, driven, stays, calls⟩ := kept.driven pure returns room (longer.along reads) has
        refine ⟨more ++ drive count turns, after, ?_, ?_, stays, ?_, ended.next calls⟩
        · rw [Round.play_append start capacity played, driven]
        · rw [entered_append, opened, entered_drive]
          rfl
        · rw [calls, List.length_set, length]
      · exact ⟨more, done, played, opened, kept, length, ended.skip fun state here => running ⟨state, here⟩⟩

/-- Every schedule can be played out, the passes one after the other. -/
theorem played_out (faithful : Faithful step start first capacity round) (pure : IsPure step start) {limit : Nat}
    (returns : ReturnsWithin step limit (start first)) (room : (limit : Int) ≤ capacity) :
    ∃ more done, round.play step start capacity more = .ok done ∧ entered more = [] ∧ done.Complete := by
  obtain ⟨more, done, played, opened, _, length, ended⟩ :=
    faithful.played_upTo pure returns room round.calls.length
  rw [← length] at ended
  exact ⟨more, done, played, opened, ended.complete⟩

/-- In a complete round the marks are those of the rule on the paths that the assignments force. -/
theorem marked_iff (faithful : Faithful step start first capacity round) (pure : IsPure step start)
    (complete : round.Complete) (path : List Bool) (mark : Mark) :
    round.shared.tree.marked path = some mark ↔ unfolded step (start first) path = some mark ∧
      ∃ assignment ∈ round.shared.passes.map Pass.assignment, forced assignment 0 path.length = path := by
  rw [faithful.marks]
  refine and_congr_right fun unfolds => ⟨?_, ?_⟩
  · rintro ⟨number, pass, progress, has, visited⟩
    obtain ⟨result, rfl⟩ := complete progress (List.mem_of_getElem? has.2)
    refine ⟨pass.assignment, List.mem_map_of_mem (List.mem_of_getElem? has.1), ?_⟩
    obtain ⟨rest, split⟩ := visited
    have answers := (faithful.attends _ _ _ has).forced
    rw [← Trail.answers_length, ← show pass.answers = Trail.answers pass.transcript from rfl, ← split] at answers
    exact forced_before answers.symm
  · rintro ⟨assignment, member, answered⟩
    obtain ⟨pass, listed, rfl⟩ := List.mem_map.mp member
    obtain ⟨number, bound, here⟩ := List.getElem_of_mem listed
    rw [← faithful.aligned] at bound
    obtain ⟨result, standing⟩ := complete _ (List.getElem_mem bound)
    have has : round.Has number pass (.returned result) :=
      ⟨List.getElem?_eq_some_iff.mpr ⟨_, here⟩, List.getElem?_eq_some_iff.mpr ⟨bound, standing⟩⟩
    refine ⟨number, pass, _, has, ?_⟩
    have attends := faithful.attends _ _ _ has
    obtain ⟨call, follows⟩ := attends.follows
    cases follows with
    | returned runs =>
        rw [Progress.Visits, attends.forced, ← answered]
        -- A position that the pass has not visited would lie behind its result, where the rule does nothing.
        rcases Nat.lt_or_ge pass.transcript.length path.length with longer | shorter
        · obtain ⟨rest, split⟩ := forced_prefix pass.assignment 0 (Nat.le_of_lt longer)
          rw [answered, ← attends.forced] at split
          cases rest with
          | nil => simp [← split, Pass.answers] at longer
          | cons answer rest =>
              have beyond := runs.beyond answer rest
              rw [show Trail.answers pass.transcript = pass.answers from rfl, split] at beyond
              rw [unfolded, pure first call, beyond] at unfolds
              cases unfolds
        · exact forced_prefix _ _ shorter

theorem runsAlone (faithful : Faithful step start first capacity round) (pure : IsPure step start) {result : Bool}
    (has : round.Has number pass (.returned result)) (call : ι) :
    RunsAlone step (start call) pass.assignment pass.transcript result := by
  have attends := faithful.attends _ _ _ has
  obtain ⟨made, follows⟩ := attends.follows
  cases follows with
  | returned runs => exact ⟨runs.congr (pure made call), attends.forced⟩

/-- The tree of a complete round depends on nothing but the set of its assignments. -/
theorem tree_eq {other : Round σ} (faithful : Faithful step start first capacity round)
    (otherFaithful : Faithful step start first capacity other) (pure : IsPure step start)
    (complete : round.Complete) (otherComplete : other.Complete)
    (same : ∀ assignment, assignment ∈ round.shared.passes.map Pass.assignment ↔
      assignment ∈ other.shared.passes.map Pass.assignment) : round.shared.tree = other.shared.tree := by
  refine Tree.ext_marked (faithful.untouched.trans otherFaithful.untouched.symm) fun path => ?_
  refine Option.ext fun mark => ?_
  rw [faithful.marked_iff pure complete, otherFaithful.marked_iff pure otherComplete]
  simp only [same]

end Faithful

/-- Passes of a pure rule never contradict each other, each runs as it would alone, and their order leaves no
trace in the tree. -/
theorem interleaved_passes_agree {start : ι → σ} {first : ι} {limit : Nat} {capacity : Int}
    (pure : IsPure step start) (returns : ReturnsWithin step limit (start first)) (room : (limit : Int) ≤ capacity)
    (turns : List (Turn ι)) :
    ∃ round : Round σ, Round.play step start capacity {} turns = .ok round ∧
      round.shared.passes.map Pass.assignment = entered turns ∧
      (∀ number pass result, round.Has number pass (.returned result) →
        ∀ call, RunsAlone step (start call) pass.assignment pass.transcript result) ∧
      (∃ more done, round.play step start capacity more = .ok done ∧ entered more = [] ∧ done.Complete) ∧
      (round.Complete → ∀ others other, Round.play step start capacity {} others = .ok other → other.Complete →
        (∀ assignment, assignment ∈ entered turns ↔ assignment ∈ entered others) →
        round.shared.tree = other.shared.tree) := by
  have empty : Faithful step start first capacity {} := .empty
  obtain ⟨round, played, faithful, opened⟩ := empty.play pure returns room turns
  refine ⟨round, played, opened, ?_, faithful.played_out pure returns room, ?_⟩
  · intro number pass result has call
    exact faithful.runsAlone pure has call
  · intro complete others other otherPlayed otherComplete same
    obtain ⟨_, again, otherFaithful, otherOpened⟩ := empty.play pure returns room others
    obtain rfl := Except.ok.inj (otherPlayed.symm.trans again)
    refine faithful.tree_eq otherFaithful pure complete otherComplete fun assignment => ?_
    rw [opened, otherOpened]
    exact same assignment

def eitherKey : Rule :=
  .any [keyRule "a", keyRule "b"]

/-- Three passes that cross each other. -/
def crossingTurns : List (Turn Nat) :=
  [.enter 0 1, .enter 2 2, .move 0, .enter (-1) 3, .move 1, .move 2, .move 0, .move 2, .move 0, .move 1]

/-- The same assignments from the last to the first, one of them twice, each pass before the next. -/
def orderlyTurns : List (Turn Nat) :=
  [.enter (-1) 1, .move 0, .move 0, .enter 2 2, .move 1, .move 1, .enter 0 3, .move 2, .move 2, .move 2,
    .enter 2 4, .move 3, .move 3]

theorem eitherKey_returns : ReturnsWithin Script.move 2 (eitherKey.start 1) := by
  intro answers length
  obtain ⟨first, second, rfl⟩ : ∃ first second, answers = [first, second] := by
    match answers, length with
    | [first, second], _ => exact ⟨first, second, rfl⟩
  cases first with
  | true => exact ⟨1, by decide, .bool true, rfl⟩
  | false => exact ⟨2, by decide, .bool second, by cases second <;> rfl⟩

theorem crossing_passes_agree :
    IsPure Script.move eitherKey.start ∧ ReturnsWithin Script.move 2 (eitherKey.start 1) ∧
    ∃ crossing orderly : Round Script,
      Round.play Script.move eitherKey.start 2 {} crossingTurns = .ok crossing ∧
      Round.play Script.move eitherKey.start 2 {} orderlyTurns = .ok orderly ∧
      crossing.Complete ∧ orderly.Complete ∧ crossing.shared.tree = orderly.shared.tree := by
  have pure : IsPure Script.move eitherKey.start := fun _ _ _ => rfl
  have room : ((2 : Nat) : Int) ≤ 2 := by decide
  obtain ⟨crossing, played, _, _, _, order⟩ := interleaved_passes_agree pure eitherKey_returns room crossingTurns
  obtain ⟨orderly, again, _⟩ := interleaved_passes_agree pure eitherKey_returns room orderlyTurns
  have complete : crossing.Complete := by
    have whole : crossing.calls = [.returned false, .returned true, .returned true] := by
      cases played
      rfl
    simp [Round.Complete, whole]
  have orderlyComplete : orderly.Complete := by
    have whole : orderly.calls = [.returned true, .returned true, .returned false, .returned true] := by
      cases again
      rfl
    simp [Round.Complete, whole]
  refine ⟨pure, eitherKey_returns, crossing, orderly, played, again, complete, orderlyComplete, ?_⟩
  refine order complete _ _ again orderlyComplete fun assignment => ?_
  simp [entered, crossingTurns, orderlyTurns]
  omega

end Extension.Decision
