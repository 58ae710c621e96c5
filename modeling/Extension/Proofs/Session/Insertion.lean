import Extension.Proofs.Rule.Exploration
import Extension.Proofs.Session.Sparing

namespace Extension

open Decision

/-! Rules into which compiles of other expressions have been inserted.

As long as each of these gives a clause that is known beforehand, and leaves the explorations in progress alone, the
rule is explored as if they were not there.  Everything is said of two ways to compile that agree where they are used,
so that no other answer can have been given.
-/

namespace Stretch

variable {σ : Type} (clauses : String → String)

/-- What a rule does until its next test, its end or a fault, if the expressions that it compiles have these
clauses. -/
def given : Stretch σ → Move σ
  | .read test next => .read test next
  | .finish value => .finish value
  | .raise fault => .raise fault
  | .readRemembered _ test _ => .raise (.passOver test.text)
  | .compile name next => (next (clauses name)).given
  | .remember _ _ next | .change _ next => next.given
  | .recall slot _ => .raise (Rule.unknown slot)

def compiled : Stretch σ → List String
  | .compile name next => name :: (next (clauses name)).compiled
  | .remember _ _ next => next.compiled
  | _ => []

/-- It uses no accessor but its own, and leaves the environment as it is. -/
def Confined : Stretch σ → Prop
  | .readRemembered _ _ _ | .recall _ _ | .change _ _ => False
  | .compile name next => (next (clauses name)).Confined
  | .remember _ _ next => next.Confined
  | _ => True

end Stretch

/-- The rule without the compiles that have been inserted. -/
def stripped {σ : Type} (step : σ → Stretch σ) (clauses : String → String) (state : σ) : Move σ :=
  (step state).given clauses

namespace Frame

/-- An exploration between two passes. -/
def paused (frame : Frame) (exploration : Exploration) : Frame :=
  { frame with exploration, pass := none }

/-- An exploration whose pass has come to a place of the tree. -/
def moved (frame : Frame) (tree : Tree) (pass : Pass) : Frame :=
  { frame with exploration := { frame.exploration with tree }, pass := some pass }

@[simp] theorem paused_exploration (frame : Frame) (exploration : Exploration) :
    (frame.paused exploration).exploration = exploration := rfl

end Frame

namespace Session

variable {σ : Type}

def ending : Move σ → Except Fault (Ending σ)
  | .read test next => .ok (.read test next)
  | .finish value => .ok (.finish value)
  | .raise fault => .error fault

variable {clauses : String → String} {nested other : String → Session σ → Reached σ String} {session : Session σ}

/-- As long as each answer is the clause of the expression, a rule goes on as it would if it were given these
clauses. -/
theorem runStretch_given {own : Option Handle} {stretch : Stretch σ} (confined : stretch.Confined clauses)
    (answers : ∀ inner, Spares session inner → inner.frames = session.frames → ∀ name ∈ stretch.compiled clauses,
      Gives inner (.ok (clauses name)) (nested name inner) (other name inner)) :
    Gives session (ending (stretch.given clauses)) (runStretch nested own stretch session)
      (runStretch other own stretch session) := by
  induction stretch generalizing session with
  | read test next => exact .of_spares (.refl session) rfl _
  | finish value => exact .of_spares (.refl session) rfl _
  | raise fault => exact .of_spares (.refl session) rfl _
  | readRemembered handle test next ih => exact confined.elim
  | compile name next ih =>
      obtain ⟨inner, answered, agrees, spares, frames⟩ :=
        (answers session (.refl session) rfl name (List.mem_cons_self ..)).eq
      rw [runStretch, runStretch, answered, agrees]
      refine (ih (clauses name) confined fun further led same asked member => ?_).since spares frames
      exact answers further (spares.trans led) (same.trans frames) asked (List.mem_cons_of_mem _ member)
  | remember accessor slot next ih =>
      have stashed : ∃ slots, ∀ nested : String → Session σ → Reached σ String,
          runStretch nested own (.remember accessor slot next) session =
            runStretch nested own next { session with slots } := ⟨_, fun _ => rfl⟩
      obtain ⟨slots, stashed⟩ := stashed
      have aside : Spares session { session with slots } := .of_members rfl rfl (Nat.le_refl _)
      rw [stashed, stashed]
      refine Gives.since (ih confined fun inner led => ?_) aside rfl
      exact answers inner (aside.trans led)
  | «recall» slot next ih => exact confined.elim
  | change environment next ih => exact confined.elim

/-! Tests through the accessor of the innermost exploration. -/

section Innermost

variable {frame : Frame} {outer : List Frame} {tree : Tree} {pass : Pass}

theorem setFrame_innermost {new : Frame} (frames : session.frames = frame :: outer)
    (serial : new.serial = frame.serial) (distinct : ∀ behind ∈ outer, behind.serial ≠ frame.serial) :
    session.setFrame new = { session with frames := new :: outer } := by
  have behind : outer.map (fun old => if old.serial == new.serial then new else old) = outer := by
    refine (List.map_congr_left fun old member => ?_).trans (List.map_id outer)
    rw [serial, if_neg (by simpa using distinct old member)]
    rfl
  rw [setFrame, frames, List.map_cons, behind, if_pos (by simp [serial])]

theorem readThrough_innermost (frames : session.frames = frame.moved tree pass :: outer)
    (distinct : ∀ behind ∈ outer, behind.serial ≠ frame.serial) (test : Test) :
    session.readThrough frame.handle test =
      match pass.read tree test with
      | .error fault => (.error fault, session)
      | .ok answered =>
          (.ok answered.answer, { session with frames := frame.moved answered.tree answered.pass :: outer }) := by
  have found : (frame.moved tree pass :: outer).find? (fun held => held.pass.isSome && held.handle == frame.handle) =
      some (frame.moved tree pass) := by
    refine List.find?_cons_of_pos ?_
    change (true && frame.handle == frame.handle) = true
    simp
  have active : session.activePass? frame.handle = some (frame.moved tree pass, pass) := by
    rw [activePass?, frames, found]
    rfl
  rw [readThrough, active]
  change (match pass.read tree test with
    | .error fault => (.error fault, session)
    | .ok answered => (.ok answered.answer, session.setFrame (frame.moved answered.tree answered.pass)) :
      Reached σ Bool) = _
  cases pass.read tree test with
  | error fault => rfl
  | ok answered => exact congrArg (Prod.mk _) (setFrame_innermost frames rfl distinct)

/-- A call of the rule, and the pass that it makes by itself. -/
inductive Passed (frame : Frame) (outer : List Frame) (before : Session σ) :
    Reached σ Value → Except Fault (Tree × Pass × Bool) → Prop
  | failed {after : Session σ} {fault : Fault} {tree : Tree} {pass : Pass} (spares : Spares before after)
      (frames : after.frames = frame.moved tree pass :: outer) :
      Passed frame outer before (.error fault, after) (.error fault)
  | returned {after : Session σ} {value : Value} {tree : Tree} {pass : Pass} (spares : Spares before after)
      (frames : after.frames = frame.moved tree pass :: outer)
      (underway : Underway frame.capacity { frame.exploration with tree } pass) :
      Passed frame outer before (.ok value, after)
        ((pass.resolve tree value.truthy).map fun resolved => (resolved, pass, value.truthy))

theorem Passed.before {first : Session σ} {reached : Reached σ Value} {made : Except Fault (Tree × Pass × Bool)}
    (passed : Passed frame outer session reached made) (spares : Spares first session) :
    Passed frame outer first reached made := by
  cases passed with
  | failed spared frames => exact .failed (spares.trans spared) frames
  | returned spared frames underway => exact .returned (spares.trans spared) frames underway

end Innermost

variable {step : σ → Stretch σ} {first : Session σ} {serial : Nat} {outer : List Frame}

/-- Whatever a rule compiles on its way, the answer is the clause of the expression. -/
structure Obliges (step : σ → Stretch σ) (clauses : String → String)
    (nested other : String → Session σ → Reached σ String) (first : Session σ) (serial : Nat) (outer : List Frame)
    (state : σ) : Prop where
  confined : ∀ {trail last}, Reads (stripped step clauses) state trail last → (step last).Confined clauses
  answers : ∀ {trail last name inner frame}, Reads (stripped step clauses) state trail last →
    name ∈ (step last).compiled clauses → Spares first inner → inner.frames = frame :: outer → frame.serial = serial →
      Gives inner (.ok (clauses name)) (nested name inner) (other name inner)

theorem Obliges.next {state : σ} {test : Test} {next : Bool → σ}
    (obliges : Obliges step clauses nested other first serial outer state)
    (asks : stripped step clauses state = .read test next) (answer : Bool) :
    Obliges step clauses nested other first serial outer (next answer) where
  confined reads := obliges.confined (.cons asks reads)
  answers reads := obliges.answers (.cons asks reads)

theorem Obliges.runs {state : σ} {frame : Frame} (obliges : Obliges step clauses nested other first serial outer state)
    (spares : Spares first session) (frames : session.frames = frame :: outer) (numbered : frame.serial = serial)
    (own : Option Handle) :
    Gives session (ending (stripped step clauses state)) (runStretch nested own (step state) session)
      (runStretch other own (step state) session) :=
  runStretch_given (obliges.confined .nil) fun _ led same _ member =>
    obliges.answers .nil member (spares.trans led) (same.trans frames) numbered

/-- Running a rule to its end is a pass of the rule without the compiles. -/
theorem runCall_given {session : Session σ} (frame : Frame) {tree : Tree} {pass : Pass} {state : σ} {budget : Nat}
    (obliges : Obliges step clauses nested other first frame.serial outer state) (spares : Spares first session)
    (frames : session.frames = frame.moved tree pass :: outer)
    (distinct : ∀ behind ∈ outer, behind.serial ≠ frame.serial)
    (underway : Underway frame.capacity { frame.exploration with tree } pass)
    (room : budget + pass.transcript.length = frame.capacity) :
    Passed frame outer session (runCall step nested frame.handle budget state session)
      (runPass (stripped step clauses) budget state tree pass) ∧
    runCall step other frame.handle budget state session = runCall step nested frame.handle budget state session := by
  obtain ⟨after, ran, agrees, spared, same⟩ := (obliges.runs spares frames rfl (some frame.handle)).eq
  have stand := same.trans frames
  unfold runCall
  rw [ran, agrees]
  cases move : stripped step clauses state with
  | raise fault =>
      rw [runPass_raise move]
      exact ⟨.failed spared stand, rfl⟩
  | finish value =>
      rw [runPass_finish move]
      exact ⟨.returned spared stand underway, rfl⟩
  | read test next =>
      have asked := readThrough_innermost stand distinct test
      cases read : pass.read tree test with
      | error fault =>
          rw [read] at asked
          rw [runPass_refused move read]
          simp only [ending, asked]
          exact ⟨.failed spared stand, trivial⟩
      | ok answered =>
          have further := underway.read read
          have longer := Pass.read_length read
          cases budget with
          | zero =>
              -- The test has been answered, so that there was room for it.
              have few := further.length_le
              omega
          | succ budget =>
              rw [read] at asked
              rw [runPass_answered move read]
              simp only [ending, asked]
              have moved : Spares after { after with frames := frame.moved answered.tree answered.pass :: outer } :=
                .of_members rfl rfl (Nat.le_refl _)
              have later := spared.trans moved
              have left : budget + answered.pass.transcript.length = frame.capacity := by omega
              obtain ⟨passed, agrees⟩ := runCall_given frame (obliges.next move answered.answer)
                (spares.trans later) rfl distinct further left
              exact ⟨passed.before later, agrees⟩
termination_by budget

/-- An exploration in a session, and the exploration of its rule without the compiles. -/
inductive Follows (first : Session σ) (origin : Frame) (outer : List Frame) : Driving σ → Exploration → Prop
  | between {session : Session σ} {exploration : Exploration} (spares : Spares first session)
      (frames : session.frames = origin.paused exploration :: outer)
      (accounted : Accounted origin.capacity exploration) (quiet : exploration.fault = none) :
      Follows first origin outer { session } exploration
  | failed {session : Session σ} {fault : Fault} {exploration : Exploration} (spares : Spares first session)
      (behind : session.frames.tail = outer) :
      Follows first origin outer { session, fault := some fault } { exploration with fault := some fault }

theorem Follows.isBusy {origin : Frame} {driving : Driving σ} {exploration : Exploration}
    (follows : Follows first origin outer driving exploration) : driving.isBusy = exploration.isBusy := by
  cases follows with
  | between spares frames accounted quiet => simp [Driving.isBusy, Exploration.isBusy, frames, quiet]
  | failed spares behind => rfl

section Passes

variable {origin : Frame} {member : Member σ} {driving : Driving σ} {exploration : Exploration}

theorem closePass_paused {after : Session σ} {tree : Tree} {pass : Pass} {assignment : Nat} {queue : List Nat}
    (frames : after.frames = (origin.paused exploration).moved tree pass :: outer)
    (queued : exploration.queue = assignment :: queue) (value : Value) :
    after.closePass value = (pass.resolve tree value.truthy).map fun grown => { after with
      frames := origin.paused (exploration.record queue assignment grown pass value.truthy) :: outer } := by
  simp only [closePass, frames, Frame.close, Frame.moved, Frame.paused_exploration, queued]
  cases pass.resolve tree value.truthy with
  | error fault => rfl
  | ok grown => rfl

def concluded : Reached σ Value → Driving σ
  | (.error fault, session) => { session, fault := some fault }
  | (.ok value, session) =>
      match session.closePass value with
      | .error fault => { session, fault := some fault }
      | .ok session => { session }

theorem runNextPass_eq {frame : Frame} {assignment : Nat} {queue : List Nat} (frames : session.frames = frame :: outer)
    (queued : frame.exploration.queue = assignment :: queue) (found : session.member? frame.name = some member) :
    runNextPass step nested { session } =
      concluded (runCall step nested frame.handle frame.capacity
        (member.expression.start (member.expression.calls + 1)) (session.openPass assignment)) := by
  simp only [runNextPass, frames, queued, found]
  rfl

/-- When the call has made its pass, it is recorded, or it has ended the exploration. -/
theorem Passed.follows {move : σ → Move σ} {start : List PassRecord → σ} {assignment : Nat} {queue : List Nat}
    {reached : Reached σ Value}
    (passed : Passed (origin.paused exploration) outer session reached (runPass move origin.capacity
      (start exploration.records) exploration.tree { assignment, capacity := origin.capacity }))
    (spares : Spares first session) (queued : exploration.queue = assignment :: queue)
    (quiet : exploration.fault = none) :
    Follows first origin outer (concluded reached) (advance move start origin.capacity exploration) := by
  generalize ran : runPass move origin.capacity (start exploration.records) exploration.tree
    { assignment, capacity := origin.capacity } = made at passed
  cases passed with
  | failed spared frames =>
      rw [advance_error queued ran]
      exact .failed (spares.trans spared) (by rw [frames, List.tail_cons])
  | @returned after value tree pass spared frames underway =>
      have closes := closePass_paused frames queued value
      cases resolved : pass.resolve tree value.truthy with
      | error fault =>
          rw [resolved] at ran closes
          rw [advance_error queued ran]
          simp only [concluded, closes, Except.map]
          exact .failed (spares.trans spared) (by rw [frames, List.tail_cons])
      | ok grown =>
          rw [resolved] at ran closes
          rw [advance_ok queued ran]
          simp only [concluded, closes, Except.map]
          have kept : Spares after { after with
              frames := origin.paused (exploration.record queue assignment grown pass value.truthy) :: outer } :=
            .of_members rfl rfl (Nat.le_refl _)
          exact .between (spares.trans (spared.trans kept)) rfl (underway.close queued resolved) quiet

theorem Follows.next (found : first.member? origin.name = some member)
    (distinct : ∀ behind ∈ outer, behind.serial ≠ origin.serial)
    (pure : IsPure (stripped step clauses) fun earlier => member.expression.start (earlier + 1))
    (obliges : ∀ earlier,
      Obliges step clauses nested other first origin.serial outer (member.expression.start (earlier + 1)))
    (follows : Follows first origin outer driving exploration) (busy : driving.isBusy = true) :
    Follows first origin outer (runNextPass step nested driving)
      (advance (stripped step clauses) (fun _ => member.expression.start 1) origin.capacity exploration) ∧
    runNextPass step other driving = runNextPass step nested driving := by
  cases follows with
  | failed => simp [Driving.isBusy] at busy
  | @between session exploration spares frames accounted quiet =>
      cases queued : exploration.queue with
      | nil => simp [Driving.isBusy, frames, queued] at busy
      | cons assignment queue =>
          obtain ⟨later, there, same⟩ := spares.member found
          have starts : later.expression.start = member.expression.start :=
            congrArg (fun fixed => fixed.expression.start) same
          have begun := spares.trans (.openPass session assignment)
          have stand : (session.openPass assignment).frames =
              (origin.paused exploration).moved exploration.tree { assignment, capacity := origin.capacity } :: outer :=
            openPass_frames frames assignment
          have underway : Underway origin.capacity exploration { assignment, capacity := origin.capacity } :=
            .begin accounted queued
          obtain ⟨passed, agrees⟩ := runCall_given (origin.paused exploration) (obliges later.expression.calls) begun
            stand distinct underway rfl
          -- The rule is pure, so that it does not matter how often it has been called.
          rw [runPass_congr (pure later.expression.calls 0)] at passed
          rw [runNextPass_eq frames queued there, runNextPass_eq frames queued there, starts]
          exact ⟨passed.follows begun queued quiet, congrArg concluded agrees⟩

theorem Follows.settled (found : first.member? origin.name = some member)
    (distinct : ∀ behind ∈ outer, behind.serial ≠ origin.serial)
    (pure : IsPure (stripped step clauses) fun earlier => member.expression.start (earlier + 1))
    (obliges : ∀ earlier,
      Obliges step clauses nested other first origin.serial outer (member.expression.start (earlier + 1)))
    (follows : Follows first origin outer driving exploration) (count height : Nat) :
    Follows first origin outer (settle Driving.isBusy (runNextPass step nested) count height driving)
      (settle Exploration.isBusy (advance (stripped step clauses) (fun _ => member.expression.start 1) origin.capacity)
        count height exploration) ∧
    settle Driving.isBusy (runNextPass step other) count height driving =
      settle Driving.isBusy (runNextPass step nested) count height driving := by
  have next (driving : Driving σ) (exploration : Exploration)
      (follows : Follows first origin outer driving exploration) (busy : driving.isBusy = true) :=
    Follows.next found distinct pure obliges follows busy
  constructor
  · have together (driving : Driving σ) (exploration : Exploration)
        (follows : Follows first origin outer driving exploration) := follows.isBusy
    exact settle_related together (fun driving exploration follows busy => (next driving exploration follows busy).1)
      follows count height
  · let invariant (driving : Driving σ) : Prop := ∃ exploration, Follows first origin outer driving exploration
    have agree (driving : Driving σ) (followed : invariant driving) (busy : driving.isBusy = true) :
        runNextPass step other driving = runNextPass step nested driving :=
      followed.elim fun exploration follows => (next driving exploration follows busy).2
    have kept (driving : Driving σ) (followed : invariant driving) (busy : driving.isBusy = true) :
        invariant (runNextPass step nested driving) :=
      followed.elim fun exploration follows => ⟨_, (next driving exploration follows busy).1⟩
    exact settle_congr agree kept ⟨exploration, follows⟩ count height

end Passes

section Explorations

variable {name : String} {member : Member σ}

theorem exploreLocked_given {expression : Expression σ} {locked : Bool}
    (found : session.member? name = some { expression, locked })
    (fresh : ∀ frame ∈ session.frames, frame.serial < session.begun)
    (pure : IsPure (stripped step clauses) fun earlier => expression.start (earlier + 1))
    (obliges : ∀ earlier, Obliges step clauses nested other { session with begun := session.begun + 1 } session.begun
      session.frames (expression.start (earlier + 1))) :
    Gives session (expression.explore (stripped step clauses) session.environment).outcome
      (exploreLocked step nested name expression session)
      (exploreLocked step other name expression session) := by
  unfold exploreLocked
  cases current : expression.currentSettings session.environment with
  | error fault =>
      have outcome : (expression.explore (stripped step clauses) session.environment).outcome = .error fault := by
        simp only [Expression.explore, current]
      rw [outcome]
      exact .of_spares (.refl session) rfl _
  | ok settings =>
      rw [Expression.explore_outcome (stripped step clauses) current, pure.explore_eq]
      let first : Session σ := { session with begun := session.begun + 1 }
      let origin : Frame := { serial := session.begun, name, capacity := settings.maxAtoms }
      have pushed : Spares first (session.push name settings.maxAtoms) := .of_members rfl rfl (Nat.le_refl _)
      have begun : Follows first origin session.frames { session := session.push name settings.maxAtoms } {} :=
        .between pushed rfl (.begun _) rfl
      have distinct : ∀ behind ∈ session.frames, behind.serial ≠ origin.serial :=
        fun behind member => Nat.ne_of_lt (fresh behind member)
      obtain ⟨ended, agrees⟩ := Follows.settled found distinct pure obliges begun (settings.maxAtoms + 1) 0
      simp only [agrees, exploreFrom]
      generalize settle Driving.isBusy (runNextPass step nested) (settings.maxAtoms + 1) 0
        { session := session.push name settings.maxAtoms } = driving at ended ⊢
      generalize settle Exploration.isBusy (advance (stripped step clauses) (fun _ => expression.start 1)
        settings.maxAtoms) (settings.maxAtoms + 1) 0 {} = exploration at ended ⊢
      have numbered : Spares session first := .of_members rfl rfl (Nat.le_succ _)
      have popped (last : Session σ) : Spares last last.pop := .of_members rfl rfl (Nat.le_refl _)
      cases ended with
      | @between last exploration spares frames accounted quiet =>
          have counted : Spares last (last.countPasses name exploration.records.length) :=
            .updateMember _ _ fun _ => rfl
          simp only [frames, Frame.paused_exploration, Exploration.outcome, quiet]
          refine .of_spares (numbered.trans (spares.trans (counted.trans (popped _)))) ?_ _
          rw [pop, countPasses_frames, frames, List.tail_cons]
      | @failed last fault exploration spares behind =>
          simp only [Exploration.outcome]
          exact .of_spares (numbered.trans (spares.trans (popped last))) behind _

/-- What an exploration leaves alone while its expression is locked, it leaves alone once that is unlocked. -/
theorem Spares.unlock {after : Session σ} (spares : Spares (session.lock name) after)
    (found : session.member? name = some member) (unlocked : member.locked = false) :
    Spares session (after.unlock name) := by
  refine ⟨?_, ?_, fun other => ?_, ?_⟩
  · simpa [Session.unlock, lock] using spares.environment
  · simpa using spares.begun
  · rw [Session.unlock, member?_updateMember]
    split
    · next same =>
        obtain ⟨later, there, held⟩ := spares.member (member?_lock found)
        have freed := congrArg (fun fixed => { fixed with locked := false }) held
        rw [same, there, found, Option.map_some, Option.map_some, Option.map_some]
        refine congrArg some (freed.trans ?_)
        cases member
        cases unlocked
        rfl
    · next differ => rw [spares.members other, lock, member?_updateMember, if_neg differ]
  · simpa [Session.unlock, lock] using spares.count

/-- Exploring an expression gives what its rule comes to without the compiles. -/
theorem exploreWith_given (found : session.member? name = some member) (unlocked : member.locked = false)
    (fresh : ∀ frame ∈ session.frames, frame.serial < session.begun)
    (pure : IsPure (stripped step clauses) fun earlier => member.expression.start (earlier + 1))
    (obliges : ∀ earlier, Obliges step clauses nested other { session.lock name with begun := session.begun + 1 }
      session.begun session.frames (member.expression.start (earlier + 1))) :
    Gives session (member.expression.explore (stripped step clauses) session.environment).outcome
      (exploreWith step nested name session) (exploreWith step other name session) := by
  have same : (session.lock name).environment = session.environment := updateMember_environment ..
  have locked : Gives (session.lock name)
      (member.expression.explore (stripped step clauses) (session.lock name).environment).outcome
      (exploreLocked step nested name member.expression (session.lock name))
      (exploreLocked step other name member.expression (session.lock name)) :=
    exploreLocked_given (member?_lock found) (by simpa using fresh) pure (by simpa using obliges)
  obtain ⟨after, ran, agrees, spares, frames⟩ := locked.eq
  rw [same] at ran agrees
  simp only [exploreWith, found, unlocked, Bool.false_eq_true, if_false, ran, agrees]
  refine .of_spares (spares.unlock found unlocked) ?_ _
  rw [unlock_frames, frames, lock_frames]

end Explorations

end Session

end Extension
