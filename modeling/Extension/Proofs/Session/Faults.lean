import Extension.Proofs.Decision.Standing
import Extension.Proofs.Session.Capacity

namespace Extension

open Decision

/-! How a pass of a session can contradict an earlier one.

There are two ways only: it makes another test than the earlier one, or it returns where that went on.  This is so
for all that code may do, and an exploration that fails for such a reason fails for one of these two, unless the code
raises the fault by itself.
-/

namespace Session

variable {σ : Type}

/-- A pass that is being run makes another test than an earlier one at the same place. -/
def ReadsOther (session : Session σ) (handle : Handle) (test : Test) (fault : Fault) : Prop :=
  ∃ frame ∈ session.frames, ∃ pass atom, frame.handle = handle ∧ frame.pass = some pass ∧
    frame.exploration.tree.marked pass.answers = some (.test atom) ∧ atom.text ≠ test.text ∧
    fault = .readOther test.text atom.text atom.depth

/-- The pass of the innermost exploration returns where an earlier one made a test. -/
def ReturnsEarly (session : Session σ) (fault : Fault) : Prop :=
  ∃ frame outer pass atom, session.frames = frame :: outer ∧ frame.pass = some pass ∧
    frame.exploration.tree.marked pass.answers = some (.test atom) ∧ fault = .returnedEarly atom.text atom.depth

section Moments

variable {session after : Session σ} {calls : List String} {control : Control} {fault : Fault}

theorem activePass?_running {handle : Handle} {frame : Frame} {pass : Pass}
    (active : session.activePass? handle = some (frame, pass)) :
    frame ∈ session.frames ∧ frame.handle = handle ∧ frame.pass = some pass := by
  rw [activePass?, Option.bind_eq_some_iff] at active
  obtain ⟨met, first, running⟩ := active
  obtain ⟨ran, standing, same⟩ := Option.map_eq_some_iff.mp running
  obtain ⟨rfl, rfl⟩ := Prod.mk.inj same
  have named := List.find?_some first
  simp only [Bool.and_eq_true, beq_iff_eq] at named
  exact ⟨List.mem_of_find?_eq_some first, named.2, standing⟩

theorem Sane.read_contradicts (sane : Sane ⟨session, calls, control⟩) {handle : Handle} {test : Test}
    (read : (session.readThrough handle test).1 = .error fault) (contradicts : fault.isNonDeterminism = true) :
    ReadsOther session handle test fault := by
  cases active : session.activePass? handle with
  | none =>
      simp only [readThrough, active] at read
      cases read
      cases contradicts
  | some found =>
      obtain ⟨frame, pass⟩ := found
      simp only [readThrough, active] at read
      obtain ⟨member, named, running⟩ := activePass?_running active
      cases refused : pass.read frame.exploration.tree test with
      | ok answered =>
          rw [refused] at read
          cases read
      | error fault =>
          rw [refused] at read
          cases read
          obtain ⟨atom, here, differ, same⟩ := (sane.framed.underway member running).read_error refused contradicts
          exact ⟨frame, member, pass, atom, named, running, here, differ, same⟩

theorem Sane.close_contradicts (sane : Sane ⟨session, calls, control⟩) {value : Value}
    (refused : session.closePass value = .error fault) : ReturnsEarly session fault := by
  cases frames : session.frames with
  | nil =>
      simp only [closePass, frames] at refused
      cases refused
  | cons frame outer =>
      simp only [closePass, frames, Frame.close] at refused
      cases running : frame.pass with
      | none =>
          simp only [running] at refused
          cases refused
      | some pass =>
          have member : frame ∈ session.frames := by simp [frames]
          have underway := sane.framed.underway member running
          obtain ⟨assignment, queue, queued⟩ := underway.queued
          simp only [running, queued] at refused
          cases resolved : pass.resolve frame.exploration.tree value.truthy with
          | ok tree =>
              rw [resolved] at refused
              cases refused
          | error fault =>
              rw [resolved] at refused
              cases refused
              obtain ⟨atom, here, same⟩ := underway.resolve_error resolved
              exact ⟨frame, outer, pass, atom, frames, running, here, same⟩

end Moments

/-- The exploration is in the middle of a pass that began with this tree. -/
def Since (tree : Tree) (frame : Frame) : Prop :=
  frame.IsRunning ∧ tree.Keeps frame.exploration.tree

theorem keptByTests_since (tree : Tree) : KeptByTests (Since tree) := by
  rintro frame pass test answered running read ⟨⟨found, standing, underway⟩, keeps⟩
  obtain rfl := Option.some.inj (standing.symm.trans running)
  refine ⟨⟨_, rfl, underway.read read⟩, fun path mark here => ?_⟩
  exact underway.keeps read path mark (keeps path mark here)

section Passes

variable {session reached after : Session σ} {calls inside : List String} {frame now : Frame}
  {outer behind : List Frame}

/-- A pass that ends without a fault ends where its tree was open when it began. -/
theorem Sane.ends_open (sane : Sane ⟨session, calls, .drive⟩) {assignment : Nat} {queue : List Nat}
    (innermost : session.frames = frame :: outer) (queued : frame.exploration.queue = assignment :: queue)
    (steps : Steps ⟨session.openPass assignment, calls, .foreign⟩ ⟨reached, inside, .foreign⟩)
    (standing : reached.frames = now :: behind) (same : now.handle = frame.handle) {value : Value}
    (closed : reached.closePass value = .ok after) :
    ∃ pass start rest, now.pass = some pass ∧ pass.answers = start ++ rest ∧
      frame.exploration.tree.at? start = some .unresolved := by
  have opens : Step ⟨session, calls, .drive⟩ ⟨session.openPass assignment, calls, .foreign⟩ := .begin innermost queued
  have begun := opens.sane sane
  have member : frame.opened assignment ∈ (session.openPass assignment).frames := by
    rw [openPass_frames innermost]
    exact List.mem_cons_self ..
  have underway := begun.framed.underway member rfl
  have tracked : Tracks (frame.opened assignment).handle (Since frame.exploration.tree) reached :=
    Steps.tracks steps begun (keptByTests_since _)
      (begun.tracks member rfl ⟨⟨_, rfl, underway⟩, fun _ _ here => here⟩)
  -- tests have only added to the tree since, and what ends the pass stands where it is open still
  obtain ⟨⟨pass, running, underway⟩, keeps⟩ := tracked.running (by simp [standing]) same
  obtain ⟨settled, closes, _⟩ := closePass_ok standing closed
  obtain ⟨assignment, queue, queued⟩ := underway.queued
  simp only [Frame.close, running, queued] at closes
  cases resolved : pass.resolve now.exploration.tree value.truthy with
  | error fault =>
      rw [resolved] at closes
      cases closes
  | ok tree =>
      obtain ⟨start, rest, split, opened⟩ := keeps.open_before (underway.resolve_open resolved)
      exact ⟨pass, start, rest, running, split, opened⟩

end Passes

/-! Where the fault of an exploration comes from. -/

section Executions

variable (step : σ → Stretch σ)

/-- A fault that a contradiction between two passes can be. -/
inductive Contradicts : Fault → Prop
  | readsOther {asked expected : String} {depth : Int} (differ : expected ≠ asked) :
      Contradicts (.readOther asked expected depth)
  | returnsEarly (text : String) (depth : Int) : Contradicts (.returnedEarly text depth)

/-- If it is about a contradiction, the fault is one of those that can occur, or code raises it by itself. -/
def Founded (fault : Fault) : Prop :=
  fault.isNonDeterminism = true → Contradicts fault ∨ Occurs step (.raise fault)

def Doing.fault? : Doing σ → Option Fault
  | .leave (.error fault) | .back (.error fault) => some fault
  | _ => none

/-- The code of an execution is that of its rules, and its fault has come from there. -/
structure Traced (execution : Execution σ) : Prop extends Rooted step execution where
  fault : ∀ fault, execution.doing.fault? = some fault → Founded step fault

variable {step} {begins : Member σ → σ → Prop} {first before after execution : Execution σ}

theorem Fails.founded {session ended : Session σ} {calls : List String} {own : Handle} {stretch : Stretch σ}
    {fault : Fault} (fails : Fails own session stretch ended fault) (sane : Sane ⟨session, calls, .foreign⟩)
    (occurs : Occurs step stretch) : Founded step fault := by
  intro contradicts
  cases fails with
  | test read | read read =>
      obtain ⟨_, _, _, _, _, _, _, differ, rfl⟩ := sane.read_contradicts (congrArg Prod.fst read) contradicts
      exact .inl (.readsOther differ)
  | «recall» missing => cases contradicts
  | raise fault => exact .inr occurs
  | finish refused =>
      obtain ⟨_, _, _, _, _, _, _, rfl⟩ := sane.close_contradicts refused
      exact .inl (.returnsEarly ..)

theorem currentSettings_founded {expression : Expression σ} {environment : Environment} {fault : Fault}
    (wrong : expression.currentSettings environment = .error fault) : Founded step fault := by
  intro contradicts
  rw [Expression.currentSettings] at wrong
  cases set : expression.settings with
  | some settings =>
      rw [set] at wrong
      cases wrong
  | none =>
      rw [set] at wrong
      cases loaded : Settings.load environment with
      | ok settings =>
          rw [loaded] at wrong
          cases wrong
      | error unset =>
          rw [loaded] at wrong
          cases wrong
          cases contradicts

theorem Proceeds.traced (proceeds : Proceeds step begins before after) (sane : Sane before.moment)
    (traced : Traced step before) : Traced step after := by
  refine ⟨proceeds.rooted traced.toRooted, fun fault same => ?_⟩
  cases proceeds with
  | go | test | compile | settle | enter | load | begin | resume | finish => cases same
  | fail innermost fails =>
      obtain rfl := Option.some.inj same
      exact fails.founded sane (traced.code _ rfl)
  | unset found wrong =>
      obtain rfl := Option.some.inj same
      exact currentSettings_founded wrong
  | unknown | refuse =>
      obtain rfl := Option.some.inj same
      exact nofun
  | @leave session calls waiting name outcome =>
      refine traced.fault fault ?_
      cases outcome <;> exact same
  | unwind => exact traced.fault fault same

theorem Reaches.traced (reaches : Reaches step begins first execution) (sane : Sane first.moment)
    (traced : Traced step first) : Traced step execution := by
  induction reaches with
  | refl => exact traced
  | tail reached proceeds ih => exact proceeds.traced (Reaches.sane reached sane) ih

end Executions

structure Unrefuted (moment : Moment σ) : Prop where
  reads : ∀ handle test fault, (moment.session.readThrough handle test).1 = .error fault →
    fault.isNonDeterminism = true → ReadsOther moment.session handle test fault
  returns : ∀ value fault, moment.session.closePass value = .error fault → ReturnsEarly moment.session fault
  /-- No test meets the result of an earlier pass. -/
  behindNone : ∀ handle test text result depth,
    (moment.session.readThrough handle test).1 ≠ .error (.readAfterResult text result depth)
  /-- No result meets that of an earlier pass. -/
  againstNone : ∀ value result existing text depth,
    moment.session.closePass value ≠ .error (.returnedOther result existing text depth)
  /-- A pass that begins here, and ends without a fault, ends at a place where nothing was known when it began. -/
  endsOpen : moment.control = .drive → ∀ frame outer assignment queue, moment.session.frames = frame :: outer →
    frame.exploration.queue = assignment :: queue → ∀ reached inside now behind value after,
      Steps ⟨moment.session.openPass assignment, moment.calls, .foreign⟩ ⟨reached, inside, .foreign⟩ →
      reached.frames = now :: behind → now.handle = frame.handle → reached.closePass value = .ok after →
      ∃ pass start rest, now.pass = some pass ∧ pass.answers = start ++ rest ∧
        frame.exploration.tree.at? start = some .unresolved ∧ frame.exploration.tree.marked pass.answers = none

theorem Sane.unrefuted {moment : Moment σ} (sane : Sane moment) : Unrefuted moment := by
  obtain ⟨session, calls, control⟩ := moment
  refine ⟨?_, ?_, ?_, ?_, ?_⟩
  · exact fun handle test fault => sane.read_contradicts
  · exact fun value fault => sane.close_contradicts
  · intro handle test text result depth read
    obtain ⟨_, _, _, _, _, _, _, _, same⟩ := sane.read_contradicts read rfl
    cases same
  · intro value result existing text depth refused
    obtain ⟨_, _, _, _, _, _, _, same⟩ := sane.close_contradicts refused
    cases same
  · rintro rfl frame outer assignment queue innermost queued reached inside now behind value after steps standing same
      closed
    obtain ⟨pass, start, rest, running, split, opened⟩ :=
      sane.ends_open innermost queued steps standing same closed
    refine ⟨pass, start, rest, running, split, opened, ?_⟩
    rw [split]
    exact Branch.marked_behind_open opened rest

/-- At no moment of a session does a pass contradict the result of another one.  An exploration from outside fails for
a contradiction only if a pass makes another test than an earlier one, or returns where that made a test, unless code
raises such a fault by itself. -/
theorem results_unrefuted (step : σ → Stretch σ) (environment : Environment) (expressions : Entries (Expression σ)) :
    (∀ moment, Steps (idle (opened environment expressions)) moment → Unrefuted moment) ∧
    ∀ session, Steps (idle (opened environment expressions)) (idle session) →
      ∀ name fault, fault.isNonDeterminism = true →
        (∀ begins after, Reaches step begins (asked session name) ⟨after, [], [], .back (.error fault)⟩ →
          Contradicts fault ∨ Occurs step (.raise fault)) ∧
        ((session.explore step name).1 = .error fault → Contradicts fault ∨ Occurs step (.raise fault)) := by
  have opened := sane_opened environment expressions
  refine ⟨fun moment steps => (steps.sane opened).unrefuted, fun session steps name fault contradicts => ?_⟩
  have sane := steps.sane opened
  have called : Step (idle session) (asked session name).moment := .ask name
  have start : Traced step (asked session name) := ⟨⟨nofun, nofun⟩, nofun⟩
  have failing {begins : Member σ → σ → Prop} {after : Session σ}
      (reaches : Reaches step begins (asked session name) ⟨after, [], [], .back (.error fault)⟩) :
      Contradicts fault ∨ Occurs step (.raise fault) :=
    (reaches.traced (called.sane sane) start).fault fault rfl contradicts
  refine ⟨fun begins after reaches => failing reaches, fun failed => ?_⟩
  have evaluates := explore_evaluates step sane name
  rw [failed] at evaluates
  exact failing evaluates

/-- Its first call tests one key, and every later one another. -/
def wavering : Entries (Expression Script) :=
  [("a", .ofRule "a" (.upTo 1 (.test (.ok (.text "k")) (.ok .truthy)) (.test (.ok (.text "j")) (.ok .truthy)))
    (some twoAtoms))]

theorem wavering_contradicts :
    ((opened [] wavering).explore Script.stretch "a").1 = .error (.readOther "j" "k" 1) ∧
    (Contradicts (.readOther "j" "k" 1) ∨ Occurs Script.stretch (.raise (.readOther "j" "k" 1))) := by
  have failed : ((opened [] wavering).explore Script.stretch "a").1 = .error (.readOther "j" "k" 1) := by rfl
  have known := (results_unrefuted Script.stretch [] wavering).2 (opened [] wavering) .refl "a"
  exact ⟨failed, (known (.readOther "j" "k" 1) rfl).2 failed⟩

end Session

end Extension
