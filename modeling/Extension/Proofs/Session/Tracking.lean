import Extension.Proofs.Session.Insertion

namespace Extension.Session

open Decision

/-! Following one pass through a session.

An accessor names its pass for ever.  Of an exploration that is in the middle of this pass, only tests can change
anything, so what tests keep is kept until the pass ends.
-/

variable {σ : Type}

/-- The pass of the accessor is over, or it is being run and this holds of its exploration. -/
structure Tracks (handle : Handle) (holds : Frame → Prop) (session : Session σ) : Prop where
  begun : handle.exploration < session.begun
  run : ∀ frame ∈ session.frames, frame.serial = handle.exploration →
    handle.pass < frame.exploration.records.length ∨ frame.pass.isSome ∧ frame.handle = handle ∧ holds frame

/-- What is kept by tests that are answered. -/
def KeptByTests (holds : Frame → Prop) : Prop :=
  ∀ (frame : Frame) (pass : Pass) (test : Test) (answered : Decision.Answered), frame.pass = some pass →
    pass.read frame.exploration.tree test = .ok answered → holds frame → holds (frame.moved answered.tree answered.pass)

variable {handle : Handle} {holds : Frame → Prop} {session after : Session σ}

theorem Tracks.of_frames (tracks : Tracks handle holds session) (begun : session.begun ≤ after.begun)
    (frames : ∀ frame ∈ after.frames, frame ∈ session.frames) : Tracks handle holds after where
  begun := Nat.lt_of_lt_of_le tracks.begun begun
  run frame member := tracks.run frame (frames frame member)

theorem Tracks.pop (tracks : Tracks handle holds session) : Tracks handle holds session.pop :=
  tracks.of_frames (Nat.le_refl _) fun _ => List.mem_of_mem_tail

theorem Tracks.read (tracks : Tracks handle holds session) (kept : KeptByTests holds) (other : Handle) (test : Test) :
    Tracks handle holds (session.readThrough other test).2 := by
  rcases session.readThrough_cases other test with same | ⟨frame, pass, answered, member, standing, read, same⟩
  · rw [same]
    exact tracks
  · rw [same]
    refine ⟨tracks.begun, fun found there serial => ?_⟩
    obtain ⟨old, before, replaced⟩ := List.mem_map.mp there
    split at replaced
    · subst replaced
      rcases tracks.run frame member serial with past | ⟨_, named, held⟩
      · exact .inl past
      · exact .inr ⟨rfl, named, kept frame pass test answered standing read held⟩
    · subst replaced
      exact tracks.run old before serial

/-- The exploration that an accessor with a running pass belongs to is not between two passes. -/
theorem Tracks.past (tracks : Tracks handle holds session) {frame : Frame} (member : frame ∈ session.frames)
    (between : frame.pass = none) (serial : frame.serial = handle.exploration) :
    handle.pass < frame.exploration.records.length := by
  rcases tracks.run frame member serial with past | ⟨running, _⟩
  · exact past
  · rw [between] at running
    cases running

variable {before later : Moment σ}

theorem Step.tracks (step : Step before later) (sane : Sane before) (kept : KeptByTests holds)
    (tracks : Tracks handle holds before.session) : Tracks handle holds later.session := by
  cases step with
  | aside | ask | unknown | refuse | unset | back => exact ⟨tracks.begun, tracks.run⟩
  | read other test => exact tracks.read kept other test
  | enter | leave => exact tracks.of_frames (Nat.le_of_eq (by simp)) (by simp)
  | reject | raise => exact tracks.pop
  | finish frames empty =>
      refine Tracks.pop (tracks.of_frames ?_ ?_)
      · exact Nat.le_of_eq (countPasses_begun ..).symm
      · simp
  | @load session calls name member settings found current =>
      refine ⟨Nat.lt_succ_of_lt tracks.begun, fun frame there serial => ?_⟩
      rcases List.mem_cons.mp there with rfl | there
      · -- a new exploration has a number that no accessor can name yet
        exact absurd serial (Nat.ne_of_gt tracks.begun)
      · exact tracks.run frame there serial
  | @begin session calls frame outer assignment queue frames queued =>
      refine ⟨by rw [openPass_begun]; exact tracks.begun, fun found there serial => ?_⟩
      rw [openPass_frames frames] at there
      cases sane.framed with
      | drive innermost named between stacked =>
          obtain ⟨rfl, rfl⟩ := List.cons.inj (frames.symm.trans innermost)
          rcases List.mem_cons.mp there with rfl | there
          · have member : frame ∈ session.frames := by simp [frames]
            have past := tracks.past member between.none serial
            exact .inl past
          · exact tracks.run found (by simp [frames, there]) serial
  | @settle session ended calls name value closed =>
      obtain ⟨frame, settled, outer, frames, _, closes, rfl, _⟩ := sane.closes closed
      change session.frames = _ at frames
      refine ⟨tracks.begun, fun found there serial => ?_⟩
      rcases List.mem_cons.mp there with rfl | there
      · left
        rw [closes.counted]
        -- if it was the pass of the accessor that has ended here, it is among the recorded ones now
        rcases tracks.run frame (by simp [frames]) (closes.serial ▸ serial) with past | ⟨_, named, _⟩
        · exact Nat.lt_succ_of_lt past
        · rw [← named]
          exact Nat.lt_succ_self _
      · exact tracks.run found (by simp [frames, there]) serial

theorem Steps.tracks (steps : Steps before later) (sane : Sane before) (kept : KeptByTests holds)
    (tracks : Tracks handle holds before.session) : Tracks handle holds later.session := by
  induction steps with
  | refl => exact tracks
  | tail steps step ih => exact step.tracks (Steps.sane steps sane) kept ih

theorem Tracks.running (tracks : Tracks handle holds session) {frame : Frame} (member : frame ∈ session.frames)
    (named : frame.handle = handle) : holds frame := by
  subst named
  rcases tracks.run frame member rfl with past | ⟨_, _, held⟩
  · exact absurd past (Nat.lt_irrefl _)
  · exact held

theorem Sane.tracks {calls : List String} {control : Control} (sane : Sane ⟨session, calls, control⟩) {frame : Frame}
    (member : frame ∈ session.frames) (running : frame.pass.isSome) (held : holds frame) :
    Tracks frame.handle holds session where
  begun := (List.pairwise_cons.mp sane.serials).1 frame.serial (List.mem_map_of_mem member)
  run found there serial := by
    have same : found = frame := List.inj_on_of_nodup_map (serials_nodup sane.serials) there member serial
    subst same
    exact .inr ⟨running, rfl, held⟩

/-! The pass of the innermost exploration. -/

/-- The innermost exploration is in the middle of the pass of the accessor, and has made at least so many tests in
it. -/
inductive Working (session : Session σ) (own : Handle) (capacity made : Nat) : Prop
  | intro {frame : Frame} {outer : List Frame} {pass : Pass} (innermost : session.frames = frame :: outer)
      (named : frame.handle = own) (limit : frame.capacity = capacity) (running : frame.pass = some pass)
      (enough : made ≤ pass.transcript.length)

variable {own : Handle} {capacity made : Nat} {calls : List String}

theorem keptByTests_made (made : Nat) :
    KeptByTests fun frame => ∃ pass, frame.pass = some pass ∧ made ≤ pass.transcript.length := by
  rintro frame pass test answered running read ⟨same, standing, enough⟩
  obtain rfl := Option.some.inj (running.symm.trans standing)
  have longer := Pass.read_length read
  exact ⟨answered.pass, rfl, by omega⟩

namespace Working

theorem named {frame : Frame} {outer : List Frame} (working : Working session own capacity made)
    (innermost : session.frames = frame :: outer) : frame.handle = own := by
  obtain ⟨frames, named, _⟩ := working
  obtain ⟨rfl, _⟩ := List.cons.inj (innermost.symm.trans frames)
  exact named

/-- Code that runs further in leaves the pass behind no test that it has made. -/
theorem leads {level : Nat} {name : String} (working : Working session own capacity made)
    (sane : Sane ⟨session, name :: calls, .foreign⟩)
    (leads : Leads level ⟨session, name :: calls, .foreign⟩ ⟨after, name :: calls, .foreign⟩) :
    Working after own capacity made := by
  obtain @⟨frame, outer, pass, innermost, named, limit, running, enough⟩ := working
  have tracked := Steps.tracks (Within.steps leads.within) sane (keptByTests_made made)
    (sane.tracks (by simp [innermost]) (by simp [running]) ⟨pass, running, enough⟩)
  have fixed := leads.fixed
  simp only [innermost] at fixed
  obtain ⟨now, behind, frames, same, _⟩ := List.map_eq_cons_iff.mp fixed
  have serial : now.serial = frame.serial := congrArg (fun fixed => fixed.serial) same
  have records := congrArg (fun fixed => fixed.exploration.records.length) same
  have handle : now.handle = frame.handle := by
    rw [Frame.handle, Frame.handle, serial]
    exact congrArg _ records
  obtain ⟨moved, standing, further⟩ := tracked.running (by simp [frames]) handle
  refine .intro frames (handle.trans named) ?_ standing further
  exact Eq.trans (congrArg (fun fixed => fixed.capacity) same) limit

theorem read {name : String} {test : Test} {answer : Bool} (working : Working session own capacity made)
    (sane : Sane ⟨session, name :: calls, .foreign⟩) (read : session.readThrough own test = (.ok answer, after)) :
    Working after own capacity (made + 1) ∧ made + 1 ≤ capacity := by
  obtain @⟨frame, outer, pass, innermost, rfl, rfl, running, enough⟩ := working
  have whole : session.frames = frame.moved frame.exploration.tree pass :: outer := by
    rw [innermost, Frame.moved, ← running]
  have distinct : ∀ behind ∈ outer, behind.serial ≠ frame.serial := by
    have serials := serials_nodup sane.serials
    simp only [innermost, List.map_cons] at serials
    intro behind member same
    exact (List.nodup_cons.mp serials).1 (same ▸ List.mem_map_of_mem member)
  have asked := readThrough_innermost whole distinct test
  cases reads : pass.read frame.exploration.tree test with
  | error fault =>
      rw [read, reads] at asked
      cases asked
  | ok answered =>
      rw [read, reads] at asked
      obtain ⟨_, rfl⟩ := Prod.mk.inj asked
      have longer := Pass.read_length reads
      cases sane.framed with
      | foreign stacked =>
          obtain ⟨ran, standing, underway⟩ := stacked.running frame (by simp [innermost])
          obtain rfl := Option.some.inj (running.symm.trans standing)
          have few := (underway.read reads).length_le
          exact ⟨.intro rfl rfl rfl rfl (by omega), by omega⟩

end Working

/-- From one session to another, code has run in the middle of the innermost exploration. -/
abbrev Ran (calls : List String) (first last : Session σ) : Prop :=
  Leads calls.length ⟨first, calls, .foreign⟩ ⟨last, calls, .foreign⟩

theorem Ran.compiled {name : String} {outcome : Except Fault Tree}
    (served : Leads calls.length ⟨session, calls, .call name⟩ ⟨after, calls, .back outcome⟩) :
    Ran calls session after := by
  have called : Leads calls.length ⟨session, calls, .foreign⟩ ⟨session, calls, .call name⟩ :=
    .single (.ask name) (Nat.le_refl _) rfl
  have back : Leads calls.length ⟨after, calls, .back outcome⟩ ⟨after, calls, .foreign⟩ :=
    .single .back (Nat.le_refl _) rfl
  exact called.trans (served.trans back)

/-- Code of the innermost exploration runs, and so many explorations may be nested in it. -/
structure Inside (depth : Nat) (name : String) (calls : List String) (session : Session σ) (own : Handle)
    (capacity made : Nat) : Prop where
  sane : Sane ⟨session, name :: calls, .foreign⟩
  room : session.members.length ≤ depth + (name :: calls).length
  working : Working session own capacity made

namespace Inside

variable {depth : Nat} {name : String}

theorem ran (inside : Inside depth name calls session own capacity made) (ran : Ran (name :: calls) session after) :
    Inside depth name calls after own capacity made where
  sane := ran.sane inside.sane
  room := Nat.le_trans (Nat.le_of_eq (Within.steps ran.within).members_length) inside.room
  working := inside.working.leads inside.sane ran

theorem test {test : Test} {answer : Bool} (inside : Inside depth name calls session own capacity made)
    (read : session.readThrough own test = (.ok answer, after)) :
    Ran (name :: calls) session after ∧ Inside depth name calls after own capacity (made + 1) ∧
      made + 1 ≤ capacity := by
  have led : Ran (name :: calls) session (session.readThrough own test).2 := readThrough_leads own test inside.sane
  rw [read] at led
  obtain ⟨further, fits⟩ := inside.working.read inside.sane read
  exact ⟨led, ⟨(inside.ran led).sane, (inside.ran led).room, further⟩, fits⟩

theorem opened {frame : Frame} {outer : List Frame} {assignment : Nat} (innermost : session.frames = frame :: outer)
    (sane : Sane ⟨session.openPass assignment, name :: calls, .foreign⟩)
    (room : (session.openPass assignment).members.length ≤ depth + (name :: calls).length) :
    Inside depth name calls (session.openPass assignment) frame.handle frame.capacity 0 where
  sane
  room
  working := .intro (openPass_frames innermost assignment) rfl rfl rfl (Nat.zero_le _)

end Inside

end Extension.Session
