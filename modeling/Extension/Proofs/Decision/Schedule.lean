import Extension.Decision.Shared
import Extension.Proofs.Decision.Marks

namespace Extension.Decision

/-! Passes of a pure rule over one tree, in any order.

Each pass has its own call of the rule and its own assignment; their turns may alternate in any way.  Every mark
in the tree is one that the rule unfolds to, so no pass finds what it does not expect.  The marks lie on the
paths that the assignments force, so that the order of the turns leaves no trace.
-/

variable {σ ι : Type} (step : σ → Move σ)

/-- How far a pass has come with its call of the rule. -/
inductive Progress (σ : Type) where
  | running (state : σ)
  | returned (result : Bool)

/-- Passes on one tree, each with its call of the rule. -/
structure Round (σ : Type) where
  shared : Shared := {}
  calls : List (Progress σ) := []

/-- A turn opens a pass for a call of the rule, or lets a pass make its next test or return. -/
inductive Turn (ι : Type) where
  | enter (assignment : Int) (call : ι)
  | move (number : Nat)

namespace Round

/-- The turn of one pass.  A pass that has returned, or was never opened, does nothing. -/
def move (round : Round σ) (number : Nat) : Except Fault (Round σ) :=
  match round.calls[number]? with
  | some (.running state) =>
      match step state with
      | .raise fault => .error fault
      | .read test next =>
          match round.shared.read number test with
          | .error fault => .error fault
          | .ok (answer, shared) => .ok { shared, calls := round.calls.set number (.running (next answer)) }
      | .finish value =>
          match round.shared.resolve number value.truthy with
          | .error fault => .error fault
          | .ok shared => .ok { shared, calls := round.calls.set number (.returned value.truthy) }
  | _ => .ok round

variable (start : ι → σ) (capacity : Int)

def take (round : Round σ) : Turn ι → Except Fault (Round σ)
  | .enter assignment call => .ok {
      shared := (round.shared.openPass assignment capacity).2
      calls := round.calls ++ [.running (start call)] }
  | .move number => round.move step number

def play (round : Round σ) : List (Turn ι) → Except Fault (Round σ)
  | [] => .ok round
  | turn :: turns =>
      match round.take step start capacity turn with
      | .error fault => .error fault
      | .ok next => next.play turns

/-- The pass of this number stands at this point of its call. -/
def Has (round : Round σ) (number : Nat) (pass : Pass) (progress : Progress σ) : Prop :=
  round.shared.passes[number]? = some pass ∧ round.calls[number]? = some progress

def Complete (round : Round σ) : Prop :=
  ∀ progress ∈ round.calls, ∃ result, progress = .returned result

end Round

/-- The assignments of the passes that are opened. -/
def entered (turns : List (Turn ι)) : List Int :=
  turns.filterMap fun
    | .enter assignment _ => some assignment
    | .move _ => none

@[simp] theorem entered_append (turns more : List (Turn ι)) :
    entered (turns ++ more) = entered turns ++ entered more :=
  List.filterMap_append

/-- By itself, with its tests answered by the bits of the assignment, the rule makes the tests of the trail and
returns the result. -/
def RunsAlone (state : σ) (assignment : Int) (trail : Trail) (result : Bool) : Prop :=
  Runs step state trail result ∧ trail.answers = forced assignment 0 trail.length

/-- The mark that belongs behind the given answers. -/
def Deed.mark? (depth : Nat) : Deed → Option Mark
  | .read test => some (.test { text := test.text, depth := (depth + 1 : Nat), key := test.key })
  | .finish value => some (.result value.truthy)
  | .raise _ => none

def unfolded (state : σ) (path : List Bool) : Option Mark :=
  (deed? step state path).bind (Deed.mark? path.length)

/-- The positions at which a pass has left a mark or found one. -/
def Progress.Visits (pass : Pass) : Progress σ → List Bool → Prop
  | .running _, path => path <+: pass.answers ∧ path ≠ pass.answers
  | .returned _, path => path <+: pass.answers

/-- A pass has made the tests of its call, and returned what the call returned. -/
inductive Follows (state : σ) (pass : Pass) : Progress σ → Prop
  | running {last : σ} (reads : Reads step state pass.transcript last) : Follows state pass (.running last)
  | returned {result : Bool} (runs : Runs step state pass.transcript result) : Follows state pass (.returned result)

structure Attends (start : ι → σ) (capacity : Int) (pass : Pass) (progress : Progress σ) : Prop where
  active : pass.active = true
  capacity : pass.capacity = capacity
  forced : pass.answers = forced pass.assignment 0 pass.transcript.length
  follows : ∃ call, Follows step (start call) pass progress

/-- The tree holds the marks of the rule at the positions that the passes have visited, and no others. -/
structure Faithful (start : ι → σ) (first : ι) (capacity : Int) (round : Round σ) : Prop where
  untouched : round.shared.tree.onFalse = .unresolved
  aligned : round.calls.length = round.shared.passes.length
  attends : ∀ number pass progress, round.Has number pass progress → Attends step start capacity pass progress
  marks : ∀ path mark, round.shared.tree.marked path = some mark ↔
    unfolded step (start first) path = some mark ∧
      ∃ number pass progress, round.Has number pass progress ∧ progress.Visits pass path

variable {step}

/-- Before its end, a run has made a test behind each beginning of its answers. -/
theorem Reads.asked {state last : σ} {trail : Trail} (reads : Reads step state trail last) {before rest : List Bool}
    {answer : Bool} (split : trail.answers = before ++ answer :: rest) :
    ∃ test, Decision.deed? step state before = some (.read test) := by
  induction reads generalizing before with
  | nil => simp at split
  | @cons state last test next given rest asks _ ih =>
      cases before with
      | nil =>
          refine ⟨test, ?_⟩
          rw [Decision.deed?, asks]
          rfl
      | cons first before =>
          obtain ⟨rfl, inside⟩ := List.cons.inj split
          rw [deed?_read asks]
          exact ih inside

theorem ReturnsWithin.trail_lt {count : Nat} {state last : σ} {trail : Trail} {test : Test} {next : Bool → σ}
    (returns : ReturnsWithin step count state) (reads : Reads step state trail last)
    (asks : step last = .read test next) : trail.length < count := by
  induction reads generalizing count with
  | @nil state =>
      cases count with
      | zero =>
          obtain ⟨value, ends⟩ := returns.finish
          rw [asks] at ends
          cases ends
      | succ count => exact Nat.succ_pos count
  | cons asked _ ih =>
      cases count with
      | zero =>
          obtain ⟨value, ends⟩ := returns.finish
          rw [asked] at ends
          cases ends
      | succ count => exact Nat.succ_lt_succ (ih (returns.next asked _) asks)

theorem IsPure.returnsWithin {start : ι → σ} {first : ι} {count : Nat} (pure : IsPure step start)
    (returns : ReturnsWithin step count (start first)) (call : ι) : ReturnsWithin step count (start call) := by
  intro answers length
  obtain ⟨reads, few, value, finished⟩ := returns answers length
  exact ⟨reads, few, value, (pure call first _).trans finished⟩

namespace Pass

variable {pass : Pass} {tree : Tree}

/-- A test that contradicts no mark, and for which there is room, is answered. -/
theorem read_gains {test : Test} (active : pass.active = true) (place : (tree.at? pass.answers).isSome = true)
    (expected : ∀ mark, tree.marked pass.answers = some mark → mark = .test (pass.newAtom test))
    (room : (pass.nextDepth : Int) ≤ pass.capacity) :
    ∃ grown found, pass.read tree test = .ok {
        tree := grown, pass := pass.past test.text found, answer := bit pass.assignment pass.nextDepth } ∧
      tree.Gains pass.answers (.test (pass.newAtom test)) grown := by
  rw [read_eq active]
  cases here : tree.marked pass.answers with
  | some mark =>
      obtain rfl := expected mark here
      exact ⟨tree, [], by simp [newAtom], .of_marked here⟩
  | none =>
      have fits : ¬ pass.capacity < pass.nextDepth := by omega
      exact ⟨_, [pass.newAtom test], if_neg fits, .put place here _⟩

/-- A result that contradicts no mark is stored. -/
theorem resolve_gains {result : Bool} (place : (tree.at? pass.answers).isSome = true)
    (expected : ∀ mark, tree.marked pass.answers = some mark → mark = .result result) :
    ∃ grown, pass.resolve tree result = .ok grown ∧ tree.Gains pass.answers (.result result) grown := by
  rw [resolve_eq]
  cases here : tree.marked pass.answers with
  | some mark =>
      obtain rfl := expected mark here
      exact ⟨tree, if_pos rfl, .of_marked here⟩
  | none => exact ⟨_, rfl, .put place here _⟩

end Pass

theorem Round.Has.set {round : Round σ} {tree : Tree} {number other : Nat} {pass : Pass} {progress : Progress σ}
    {found : Pass} {point : Progress σ}
    (has : Round.Has { shared := { tree, passes := round.shared.passes.set number pass }
                       calls := round.calls.set number progress } other found point) :
    (other = number ∧ found = pass ∧ point = progress) ∨ (other ≠ number ∧ round.Has other found point) := by
  obtain ⟨passAt, callAt⟩ := has
  by_cases same : other = number
  · subst same
    simp only [List.getElem?_set] at passAt callAt
    split at passAt <;> split at callAt <;> simp_all
  · rw [List.getElem?_set_ne (Ne.symm same)] at passAt callAt
    exact .inr ⟨same, passAt, callAt⟩

theorem Round.Has.set_self {round : Round σ} {number : Nat} {old : Pass} {point : Progress σ}
    (has : round.Has number old point) (tree : Tree) (pass : Pass) (progress : Progress σ) :
    Round.Has { shared := { tree, passes := round.shared.passes.set number pass }
                calls := round.calls.set number progress } number pass progress := by
  obtain ⟨passAt, callAt⟩ := has
  obtain ⟨passBound, _⟩ := List.getElem?_eq_some_iff.mp passAt
  obtain ⟨callBound, _⟩ := List.getElem?_eq_some_iff.mp callAt
  exact ⟨List.getElem?_set_self passBound, List.getElem?_set_self callBound⟩

theorem Round.Has.set_other {round : Round σ} {number other : Nat} {found : Pass} {point : Progress σ}
    (has : round.Has other found point) (differs : other ≠ number) (tree : Tree) (pass : Pass)
    (progress : Progress σ) :
    Round.Has { shared := { tree, passes := round.shared.passes.set number pass }
                calls := round.calls.set number progress } other found point :=
  ⟨(List.getElem?_set_ne differs.symm).trans has.1, (List.getElem?_set_ne differs.symm).trans has.2⟩

theorem Round.Has.set_pass {round : Round σ} {number : Nat} {pass : Pass} {point : Progress σ}
    (has : round.Has number pass point) : round.shared.passes.set number pass = round.shared.passes := by
  obtain ⟨bound, here⟩ := List.getElem?_eq_some_iff.mp has.1
  rw [← here, List.set_getElem_self]

theorem Round.Has.map_set {β : Type} {round : Round σ} {number : Nat} {old : Pass} {point : Progress σ}
    (has : round.Has number old point) (view : Pass → β) {pass : Pass} (same : view pass = view old) :
    (round.shared.passes.set number pass).map view = round.shared.passes.map view := by
  rw [List.map_set, same, ← List.map_set, has.set_pass]

theorem Round.has_opened {round : Round σ} (aligned : round.calls.length = round.shared.passes.length)
    {opened : Pass} {call : Progress σ} {tree : Tree} {number : Nat} {pass : Pass} {progress : Progress σ} :
    Round.Has { shared := { tree, passes := round.shared.passes ++ [opened] }, calls := round.calls ++ [call] }
        number pass progress ↔
      round.Has number pass progress ∨ number = round.calls.length ∧ pass = opened ∧ progress = call := by
  rw [Round.Has, Round.Has]
  rcases Nat.lt_trichotomy number round.calls.length with before | rfl | beyond
  · rw [List.getElem?_append_left (by omega), List.getElem?_append_left before]
    exact ⟨.inl, fun has => has.elim id fun same => absurd same.1 (Nat.ne_of_lt before)⟩
  · simp [aligned, eq_comm]
  · have none : (round.calls ++ [call])[number]? = none := by
      rw [List.getElem?_eq_none_iff, List.length_append]
      exact beyond
    have shorter : round.calls[number]? = .none := List.getElem?_eq_none (Nat.le_of_lt beyond)
    simp [none, shorter, Nat.ne_of_gt beyond]

namespace Faithful

variable {start : ι → σ} {first : ι} {capacity : Int} {round : Round σ} {number : Nat} {pass : Pass} {state : σ}

theorem empty : Faithful step start first capacity {} where
  untouched := rfl
  aligned := rfl
  attends number pass progress has := by simp [Round.Has] at has
  marks path mark := by simp [Round.Has, Tree.marked, Tree.empty]

theorem has (faithful : Faithful step start first capacity round) {progress : Progress σ}
    (standing : round.calls[number]? = some progress) : ∃ pass, round.Has number pass progress := by
  obtain ⟨bound, _⟩ := List.getElem?_eq_some_iff.mp standing
  rw [faithful.aligned] at bound
  exact ⟨_, List.getElem?_eq_getElem bound, standing⟩

theorem reads (faithful : Faithful step start first capacity round) (has : round.Has number pass (.running state)) :
    ∃ call, Reads step (start call) pass.transcript state := by
  obtain ⟨call, follows⟩ := (faithful.attends _ _ _ has).follows
  cases follows with
  | running reads => exact ⟨call, reads⟩

/-- A running pass stands at a position of the tree. -/
theorem place (faithful : Faithful step start first capacity round) (pure : IsPure step start)
    (has : round.Has number pass (.running state)) : (round.shared.tree.at? pass.answers).isSome = true := by
  rcases List.eq_nil_or_concat pass.answers with start | ⟨before, answer, split⟩
  · rw [start]
    rfl
  · rw [split, List.concat_eq_append, Tree.at?, Branch.follow_concat_isSome]
    rw [List.concat_eq_append] at split
    obtain ⟨call, reads⟩ := faithful.reads has
    -- The last answer was given to a test, which has left its mark at the position before.
    obtain ⟨test, asked⟩ := reads.asked split
    have unfolds : unfolded step (start first) before =
        some (.test { text := test.text, depth := (before.length + 1 : Nat), key := test.key }) := by
      rw [unfolded, pure first call, asked]
      rfl
    refine ⟨_, (faithful.marks _ _).mpr ⟨unfolds, number, pass, _, has, ?_⟩⟩
    rw [Progress.Visits, split]
    exact ⟨List.prefix_append .., by simp⟩

theorem unfolded_eq (faithful : Faithful step start first capacity round) (pure : IsPure step start)
    (has : round.Has number pass (.running state)) :
    unfolded step (start first) pass.answers = (step state).deed.mark? pass.transcript.length := by
  obtain ⟨call, reads⟩ := faithful.reads has
  have given : pass.answers = Trail.answers pass.transcript := rfl
  rw [unfolded, pure first call, given, reads.deed?_eq, Trail.answers_length]
  rfl

theorem expected (faithful : Faithful step start first capacity round) {path : List Bool} {mark found : Mark}
    (unfolds : unfolded step (start first) path = some mark)
    (here : round.shared.tree.marked path = some found) : found = mark := by
  have known := ((faithful.marks _ _).mp here).1
  rw [unfolds] at known
  exact (Option.some.inj known).symm

/-- A pass that has moved on leaves behind the mark of the position where it stood. -/
theorem moved (faithful : Faithful step start first capacity round) (has : round.Has number pass (.running state))
    {grown : Tree} {next : Pass} {progress : Progress σ} {mark : Mark}
    (unfolds : unfolded step (start first) pass.answers = some mark)
    (gains : round.shared.tree.Gains pass.answers mark grown)
    (attends : Attends step start capacity next progress)
    (visits : ∀ path, progress.Visits next path ↔ path <+: pass.answers) :
    Faithful step start first capacity {
      shared := { tree := grown, passes := round.shared.passes.set number next }
      calls := round.calls.set number progress } where
  untouched := gains.onFalse.trans faithful.untouched
  aligned := by simpa using faithful.aligned
  attends other found point hasOther := by
    rcases hasOther.set with ⟨rfl, rfl, rfl⟩ | ⟨_, before⟩
    · exact attends
    · exact faithful.attends other found point before
  marks path met := by
    rw [gains.marked]
    -- The position where the pass stood is the only one that is visited anew.
    by_cases here : path = pass.answers
    · rw [if_pos here, here, unfolds]
      refine ⟨fun same => ⟨same, ?_⟩, And.left⟩
      exact ⟨number, next, progress, has.set_self .., (visits _).mpr (List.prefix_refl _)⟩
    · rw [if_neg here, faithful.marks]
      refine and_congr_right fun _ => ⟨?_, ?_⟩
      · rintro ⟨other, found, point, hasOther, visited⟩
        by_cases same : other = number
        · subst same
          obtain rfl : pass = found := Option.some.inj (has.1.symm.trans hasOther.1)
          obtain rfl : Progress.running state = point := Option.some.inj (has.2.symm.trans hasOther.2)
          exact ⟨other, next, progress, has.set_self .., (visits _).mpr visited.1⟩
        · exact ⟨other, found, point, hasOther.set_other same .., visited⟩
      · rintro ⟨other, found, point, hasOther, visited⟩
        rcases hasOther.set with ⟨rfl, rfl, rfl⟩ | ⟨_, before⟩
        · exact ⟨other, pass, _, has, (visits _).mp visited, here⟩
        · exact ⟨other, found, point, before, visited⟩

theorem asks (faithful : Faithful step start first capacity round) (pure : IsPure step start) {limit : Nat}
    (returns : ReturnsWithin step limit (start first)) (room : (limit : Int) ≤ capacity)
    (has : round.Has number pass (.running state)) {test : Test} {next : Bool → σ}
    (asks : step state = .read test next) :
    ∃ answer after, round.shared.read number test = .ok (answer, after) ∧
      Faithful step start first capacity { shared := after, calls := round.calls.set number (.running (next answer)) } ∧
      after.passes.map Pass.assignment = round.shared.passes.map Pass.assignment := by
  obtain ⟨call, reads⟩ := faithful.reads has
  have attends := faithful.attends _ _ _ has
  have unfolds := faithful.unfolded_eq pure has
  rw [asks] at unfolds
  -- Whoever goes on reading has read less than the limit so far.
  have shallow : pass.transcript.length < limit := (pure.returnsWithin returns call).trail_lt reads asks
  have fits : (pass.nextDepth : Int) ≤ pass.capacity := by
    rw [attends.capacity, Pass.nextDepth]
    omega
  obtain ⟨grown, found, read, gains⟩ := Pass.read_gains attends.active (faithful.place pure has)
    (fun _ here => faithful.expected unfolds here) fits
  have pending : round.shared.passes.getD number default = pass := by
    rw [List.getD_eq_getElem?_getD, has.1]
    rfl
  refine ⟨bit pass.assignment pass.nextDepth,
    { tree := grown, passes := round.shared.passes.set number (pass.past test.text found) }, ?_, ?_, ?_⟩
  · rw [Shared.read, pending, read]
  · refine faithful.moved has unfolds gains ?_ ?_
    · exact {
        active := attends.active
        capacity := attends.capacity
        forced := by
          rw [Pass.past_answers, attends.forced]
          simp [Pass.past, Pass.along, forced_succ, Pass.nextDepth]
        follows := ⟨call, .running (reads.append (.cons asks .nil))⟩ }
    · intro path
      rw [Progress.Visits, Pass.past_answers, List.prefix_concat_iff]
      constructor
      · rintro ⟨whole | before, shorter⟩
        · exact absurd whole shorter
        · exact before
      · intro before
        refine ⟨.inr before, fun whole => ?_⟩
        have longer := before.length_le
        rw [whole, List.length_append, List.length_singleton] at longer
        omega
  · exact has.map_set Pass.assignment rfl

theorem finishes (faithful : Faithful step start first capacity round) (pure : IsPure step start)
    (has : round.Has number pass (.running state)) {value : Value} (ends : step state = .finish value) :
    ∃ grown, round.shared.resolve number value.truthy = .ok { round.shared with tree := grown } ∧
      Faithful step start first capacity {
        shared := { round.shared with tree := grown }
        calls := round.calls.set number (.returned value.truthy) } := by
  obtain ⟨call, reads⟩ := faithful.reads has
  have attends := faithful.attends _ _ _ has
  have unfolds := faithful.unfolded_eq pure has
  rw [ends] at unfolds
  obtain ⟨grown, resolved, gains⟩ := Pass.resolve_gains (faithful.place pure has)
    (fun _ here => faithful.expected unfolds here)
  have pending : round.shared.passes.getD number default = pass := by
    rw [List.getD_eq_getElem?_getD, has.1]
    rfl
  refine ⟨grown, ?_, ?_⟩
  · rw [Shared.resolve, pending, resolved]
  · have ended : Attends step start capacity pass (.returned value.truthy) :=
      { attends with follows := ⟨call, .returned ⟨state, value, reads, ends, rfl⟩⟩ }
    have after := faithful.moved has unfolds gains ended fun _ => Iff.rfl
    rwa [has.set_pass] at after

/-- One turn of a pass: if it is running, it makes its next test or returns. -/
theorem move (faithful : Faithful step start first capacity round) (pure : IsPure step start) {limit : Nat}
    (returns : ReturnsWithin step limit (start first)) (room : (limit : Int) ≤ capacity) (number : Nat) :
    ∃ after, round.move step number = .ok after ∧ Faithful step start first capacity after ∧
      after.shared.passes.map Pass.assignment = round.shared.passes.map Pass.assignment := by
  rw [Round.move]
  rcases standing : round.calls[number]? with _ | ⟨state | result⟩
  · exact ⟨round, rfl, faithful, rfl⟩
  · obtain ⟨pass, has⟩ := faithful.has standing
    obtain ⟨call, reads⟩ := faithful.reads has
    cases taken : step state with
    | raise fault =>
        have quiet := (pure.returnsWithin returns call).neverRaises (Trail.answers pass.transcript) fault
        rw [reads.deed?_eq, taken] at quiet
        exact absurd rfl quiet
    | read test next =>
        obtain ⟨answer, after, read, kept, same⟩ := faithful.asks pure returns room has taken
        exact ⟨_, by simp only [taken, read], kept, same⟩
    | finish value =>
        obtain ⟨grown, resolved, kept⟩ := faithful.finishes pure has taken
        exact ⟨_, by simp only [taken, resolved], kept, rfl⟩
  · exact ⟨round, rfl, faithful, rfl⟩

theorem enter (faithful : Faithful step start first capacity round) (assignment : Int) (call : ι) :
    Faithful step start first capacity {
      shared := (round.shared.openPass assignment capacity).2
      calls := round.calls ++ [.running (start call)] } where
  untouched := faithful.untouched
  aligned := by simp [Shared.openPass, faithful.aligned]
  attends number pass progress has := by
    rcases (Round.has_opened faithful.aligned).mp has with before | ⟨_, rfl, rfl⟩
    · exact faithful.attends number pass progress before
    · exact { active := rfl, capacity := rfl, forced := rfl, follows := ⟨call, .running .nil⟩ }
  marks path mark := by
    rw [Shared.openPass, faithful.marks]
    refine and_congr_right fun _ => ⟨?_, ?_⟩
    · rintro ⟨number, pass, progress, has, visited⟩
      exact ⟨number, pass, progress, (Round.has_opened faithful.aligned).mpr (.inl has), visited⟩
    · rintro ⟨number, pass, progress, has, visited⟩
      rcases (Round.has_opened faithful.aligned).mp has with before | ⟨_, rfl, rfl⟩
      · exact ⟨number, pass, progress, before, visited⟩
      · exact absurd (List.prefix_nil.mp visited.1) visited.2

theorem take (faithful : Faithful step start first capacity round) (pure : IsPure step start) {limit : Nat}
    (returns : ReturnsWithin step limit (start first)) (room : (limit : Int) ≤ capacity) (turn : Turn ι) :
    ∃ after, round.take step start capacity turn = .ok after ∧ Faithful step start first capacity after ∧
      after.shared.passes.map Pass.assignment = round.shared.passes.map Pass.assignment ++ entered [turn] := by
  cases turn with
  | enter assignment call =>
      exact ⟨_, rfl, faithful.enter assignment call, by simp [Shared.openPass, entered]⟩
  | move number =>
      obtain ⟨after, moved, kept, same⟩ := faithful.move pure returns room number
      exact ⟨after, moved, kept, by simp [same, entered]⟩

theorem play (faithful : Faithful step start first capacity round) (pure : IsPure step start) {limit : Nat}
    (returns : ReturnsWithin step limit (start first)) (room : (limit : Int) ≤ capacity) (turns : List (Turn ι)) :
    ∃ after, round.play step start capacity turns = .ok after ∧ Faithful step start first capacity after ∧
      after.shared.passes.map Pass.assignment = round.shared.passes.map Pass.assignment ++ entered turns := by
  induction turns generalizing round with
  | nil => exact ⟨round, rfl, faithful, by simp [entered]⟩
  | cons turn turns ih =>
      obtain ⟨next, taken, kept, opened⟩ := faithful.take pure returns room turn
      obtain ⟨after, played, ends, rest⟩ := ih kept
      refine ⟨after, by simp only [Round.play, taken, played], ends, ?_⟩
      rw [rest, opened, List.append_assoc, ← entered_append, List.singleton_append]

end Faithful

end Extension.Decision
