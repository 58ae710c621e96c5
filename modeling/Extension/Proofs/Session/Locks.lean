import Mathlib.Data.List.Nodup
import Extension.Proofs.Decision.Underway
import Extension.Proofs.Session.Moment

namespace Extension

open Decision

/-! What holds at every moment of a session.

The locks that are held are those of the explorations in progress.  Each of these is in the middle of a pass, but for
the innermost one when it is between two passes.
-/

namespace Frame

/-- The exploration is in the middle of a pass. -/
def IsRunning (frame : Frame) : Prop :=
  ∃ pass, frame.pass = some pass ∧ Underway frame.capacity frame.exploration pass

/-- The exploration is between two passes. -/
structure IsBetween (frame : Frame) : Prop where
  none : frame.pass = none
  accounted : Accounted frame.capacity frame.exploration

variable {frame ended : Frame} {value : Value}

/-- What becomes of an exploration when its pass ends. -/
structure Closes (frame ended : Frame) : Prop where
  name : ended.name = frame.name
  serial : ended.serial = frame.serial
  capacity : ended.capacity = frame.capacity
  counted : ended.exploration.records.length = frame.exploration.records.length + 1
  between : ended.IsBetween

theorem IsRunning.close (running : frame.IsRunning) (closed : frame.close value = .ok ended) : Closes frame ended := by
  obtain ⟨pass, standing, underway⟩ := running
  obtain ⟨assignment, queue, queued⟩ := underway.queued
  simp only [Frame.close, standing, queued] at closed
  cases resolved : pass.resolve frame.exploration.tree value.truthy with
  | error fault => simp [resolved] at closed
  | ok tree =>
      simp only [resolved, Except.ok.injEq] at closed
      subst closed
      exact ⟨rfl, rfl, rfl, by simp [Exploration.record], rfl, underway.close queued resolved⟩

end Frame

namespace Session

variable {σ : Type}

/-- Explorations that wait for one another, each in the middle of a pass. -/
structure Stacked (frames : List Frame) (calls : List String) : Prop where
  names : frames.map Frame.name = calls
  running : ∀ frame ∈ frames, frame.IsRunning

theorem Stacked.cons {frames : List Frame} {name : String} {calls : List String}
    (stacked : Stacked frames (name :: calls)) :
    ∃ frame outer, frames = frame :: outer ∧ frame.name = name ∧ frame.IsRunning ∧ Stacked outer calls := by
  obtain ⟨frame, outer, rfl, named, names⟩ := List.map_eq_cons_iff.mp stacked.names
  have running := List.forall_mem_cons.mp stacked.running
  exact ⟨frame, outer, rfl, named, running.1, names, running.2⟩

theorem Stacked.push {frame : Frame} {outer : List Frame} {calls : List String} (running : frame.IsRunning)
    (stacked : Stacked outer calls) : Stacked (frame :: outer) (frame.name :: calls) :=
  ⟨congrArg (frame.name :: ·) stacked.names, List.forall_mem_cons.mpr ⟨running, stacked.running⟩⟩

/-- The explorations in progress, and what is being done. -/
inductive Framed : List Frame → List String → Control → Prop
  | foreign {frames : List Frame} {calls : List String} (stacked : Stacked frames calls) :
      Framed frames calls .foreign
  | call {frames : List Frame} {calls : List String} {name : String} (stacked : Stacked frames calls) :
      Framed frames calls (.call name)
  | load {frames : List Frame} {calls : List String} {name : String} (stacked : Stacked frames calls) :
      Framed frames (name :: calls) .load
  | drive {frames : List Frame} {frame : Frame} {outer : List Frame} {calls : List String} {name : String}
      (innermost : frames = frame :: outer) (named : frame.name = name) (between : frame.IsBetween)
      (stacked : Stacked outer calls) : Framed frames (name :: calls) .drive
  | leave {frames : List Frame} {calls : List String} {name : String} {outcome : Except Fault Tree}
      (stacked : Stacked frames calls) : Framed frames (name :: calls) (.leave outcome)
  | back {frames : List Frame} {calls : List String} {outcome : Except Fault Tree} (stacked : Stacked frames calls) :
      Framed frames calls (.back outcome)

/-- What holds at every moment. -/
structure Sane (moment : Moment σ) : Prop where
  locked_iff : ∀ name, moment.session.locked? name = some true ↔ name ∈ moment.calls
  distinct : moment.calls.Nodup
  /-- The explorations are numbered in the order of their beginnings. -/
  serials : (moment.session.begun :: moment.session.frames.map Frame.serial).Pairwise (· > ·)
  framed : Framed moment.session.frames moment.calls moment.control

/-! Tests through accessors. -/

section Reading

variable {session : Session σ} {frame new : Frame}

/-- What a frame has in common with the one that it replaces is the same for all frames. -/
theorem setFrame_map {α : Type} (view : Frame → α) (distinct : (session.frames.map Frame.serial).Nodup)
    (member : frame ∈ session.frames) (serial : new.serial = frame.serial) (same : view new = view frame) :
    (session.setFrame new).frames.map view = session.frames.map view := by
  rw [setFrame, List.map_map]
  refine List.map_congr_left fun old there => ?_
  rw [Function.comp_apply]
  split
  · next found =>
      have unique := List.inj_on_of_nodup_map distinct there member ((eq_of_beq found).trans serial)
      rw [same, unique]
  · rfl

theorem serials_nodup {begun : Nat} {frames : List Frame}
    (serials : (begun :: frames.map Frame.serial).Pairwise (· > ·)) : (frames.map Frame.serial).Nodup :=
  (List.pairwise_cons.mp serials).2.imp Nat.ne_of_gt

/-- A test through any accessor leaves all explorations in the middle of their passes. -/
theorem readThrough_frames (session : Session σ) (handle : Handle) (test : Test)
    (distinct : (session.frames.map Frame.serial).Nodup) :
    (session.readThrough handle test).2.frames.map Frame.name = session.frames.map Frame.name ∧
    (session.readThrough handle test).2.frames.map Frame.serial = session.frames.map Frame.serial ∧
    ((∀ frame ∈ session.frames, frame.IsRunning) →
      ∀ frame ∈ (session.readThrough handle test).2.frames, frame.IsRunning) := by
  rcases session.readThrough_cases handle test with same | ⟨frame, pass, answered, member, standing, read, same⟩
  · rw [same]
    exact ⟨rfl, rfl, id⟩
  · rw [same]
    refine ⟨setFrame_map _ distinct member rfl rfl, setFrame_map _ distinct member rfl rfl, ?_⟩
    intro running found there
    obtain ⟨old, before, replaced⟩ := List.mem_map.mp there
    split at replaced
    · obtain ⟨ran, stood, underway⟩ := running frame member
      obtain rfl := Option.some.inj (stood.symm.trans standing)
      rw [← replaced]
      exact ⟨_, rfl, underway.read read⟩
    · rw [← replaced]
      exact running old before

theorem readThrough_members (session : Session σ) (handle : Handle) (test : Test) :
    (session.readThrough handle test).2.members = session.members ∧
      (session.readThrough handle test).2.begun = session.begun := by
  rcases session.readThrough_cases handle test with same | ⟨_, _, _, _, _, _, same⟩
  · rw [same]
    exact ⟨rfl, rfl⟩
  · rw [same]
    exact ⟨rfl, rfl⟩

end Reading

theorem member?_of_members {first second : Session σ} (same : first.members = second.members) (name : String) :
    first.member? name = second.member? name := by
  rw [member?, member?, same]

theorem locked?_of_members {first second : Session σ} (same : first.members = second.members) (name : String) :
    first.locked? name = second.locked? name := by
  rw [locked?, locked?, member?_of_members same]

theorem passes?_of_members {first second : Session σ} (same : first.members = second.members) (name : String) :
    first.passes? name = second.passes? name := by
  rw [passes?, passes?, member?_of_members same]

variable {before after : Moment σ}

theorem Step.locked_iff (step : Step before after) (sane : Sane before) (name : String) :
    after.session.locked? name = some true ↔ name ∈ after.calls := by
  have held := sane.locked_iff name
  cases step with
  | aside slots environment => exact held
  | read handle test =>
      rw [locked?_of_members (readThrough_members _ handle test).1]
      exact held
  | ask | unknown absent | refuse found locked | unset found wrong | back => exact held
  | load found current => exact held
  | begin frames queued =>
      rw [locked?_openPass]
      exact held
  | finish frames empty =>
      change (countPasses _ _ _).locked? name = some true ↔ _
      rw [locked?_countPasses]
      exact held
  | settle closed =>
      rw [locked?_of_members (closePass_members closed).1]
      exact held
  | reject refused => exact held
  | raise fault => exact held
  | @enter session calls entered member found unlocked =>
      rw [locked?_lock, List.mem_cons]
      by_cases same : name = entered
      · simp [same, locked?, found]
      · simp [same, held]
  | @leave session calls left outcome =>
      rw [locked?_unlock]
      by_cases same : name = left
      · have absent := (List.nodup_cons.mp sane.distinct).1
        simp [same, absent]
      · rw [if_neg same, held, List.mem_cons, or_iff_right same]

theorem not_mem_of_unlocked {session : Session σ} {calls : List String} {name : String} {member : Member σ}
    (locked_iff : ∀ name, session.locked? name = some true ↔ name ∈ calls)
    (found : session.member? name = some member) (unlocked : member.locked = false) : name ∉ calls := by
  intro inside
  have locked := (locked_iff name).mpr inside
  simp [locked?, found, unlocked] at locked

theorem Step.distinct (step : Step before after) (sane : Sane before) : after.calls.Nodup := by
  have distinct := sane.distinct
  cases step with
  | @enter session calls name member found unlocked =>
      exact List.nodup_cons.mpr ⟨not_mem_of_unlocked sane.locked_iff found unlocked, distinct⟩
  | leave => exact (List.nodup_cons.mp distinct).2
  | _ => exact distinct

/-- The pass that ends is that of the innermost exploration. -/
theorem Sane.closes {session ended : Session σ} {name : String} {calls : List String} {value : Value}
    (sane : Sane ⟨session, name :: calls, .foreign⟩) (closed : session.closePass value = .ok ended) :
    ∃ frame settled outer, session.frames = frame :: outer ∧ frame.name = name ∧ Frame.Closes frame settled ∧
      ended = { session with frames := settled :: outer } ∧ Stacked outer calls := by
  cases sane.framed with
  | foreign stacked =>
      obtain ⟨frame, outer, frames, named, running, inside⟩ := stacked.cons
      obtain ⟨settled, closes, same⟩ := closePass_ok frames closed
      exact ⟨frame, settled, outer, frames, named, running.close closes, same, inside⟩

theorem Step.serials (step : Step before after) (sane : Sane before) :
    (after.session.begun :: after.session.frames.map Frame.serial).Pairwise (· > ·) := by
  have serials := sane.serials
  have popped {begun : Nat} {frames : List Frame} (serials : (begun :: frames.map Frame.serial).Pairwise (· > ·)) :
      (begun :: frames.tail.map Frame.serial).Pairwise (· > ·) := by
    refine serials.sublist (.cons_cons _ ?_)
    rw [List.map_tail]
    exact List.tail_sublist _
  cases step with
  | aside | ask | unknown | refuse | unset | back => exact serials
  | @read session calls handle test =>
      obtain ⟨_, same, _⟩ := readThrough_frames session handle test (serials_nodup serials)
      rw [same, (readThrough_members session handle test).2]
      exact serials
  | enter | leave => simpa using serials
  | @load session calls name member settings found current =>
      refine List.pairwise_cons.mpr ⟨fun serial member => ?_, serials⟩
      rcases List.mem_cons.mp member with rfl | member
      · exact Nat.lt_succ_self _
      · exact Nat.lt_succ_of_lt ((List.pairwise_cons.mp serials).1 serial member)
  | @begin session calls frame outer assignment queue frames queued =>
      rw [openPass_begun, openPass_frames frames]
      change (session.begun :: session.frames.map Frame.serial).Pairwise (· > ·) at serials
      rw [frames] at serials
      exact serials
  | finish frames empty =>
      refine popped ?_
      rw [countPasses_frames]
      simpa [pop] using serials
  | @settle session after calls name value closed =>
      obtain ⟨frame, settled, outer, frames, _, closes, rfl, _⟩ := sane.closes closed
      change (session.begun :: session.frames.map Frame.serial).Pairwise (· > ·) at serials
      rw [frames] at serials
      simpa [closes.serial] using serials
  | reject refused => exact popped serials
  | raise fault => exact popped serials

theorem Stacked.pop {session : Session σ} {name : String} {calls : List String}
    (stacked : Stacked session.frames (name :: calls)) : Stacked session.pop.frames calls := by
  obtain ⟨frame, outer, frames, _, _, inside⟩ := stacked.cons
  rw [Session.pop, frames]
  exact inside

theorem Step.framed (step : Step before after) (sane : Sane before) :
    Framed after.session.frames after.calls after.control := by
  have framed := sane.framed
  cases step with
  | aside slots environment =>
      cases framed with
      | foreign stacked => exact .foreign stacked
  | @read session calls handle test =>
      cases framed with
      | foreign stacked =>
          obtain ⟨names, _, running⟩ := readThrough_frames session handle test (serials_nodup sane.serials)
          exact .foreign ⟨names.trans stacked.names, running stacked.running⟩
  | ask name =>
      cases framed with
      | foreign stacked => exact .call stacked
  | unknown absent =>
      cases framed with
      | call stacked => exact .back stacked
  | refuse found locked =>
      cases framed with
      | call stacked => exact .back stacked
  | enter found unlocked =>
      cases framed with
      | call stacked =>
          rw [lock_frames]
          exact .load stacked
  | @load session calls name member settings found current =>
      cases framed with
      | load stacked => exact .drive rfl rfl ⟨rfl, .begun settings.maxAtoms⟩ stacked
  | unset found wrong =>
      cases framed with
      | load stacked => exact .leave stacked
  | @begin session calls frame outer assignment queue frames queued =>
      cases framed with
      | drive innermost named between stacked =>
          obtain ⟨rfl, rfl⟩ := List.cons.inj (frames.symm.trans innermost)
          rw [openPass_frames frames, ← named]
          exact .foreign (stacked.push ⟨_, rfl, .begin between.accounted queued⟩)
  | @finish session calls name frame outer frames empty =>
      cases framed with
      | drive innermost named between stacked =>
          obtain ⟨rfl, rfl⟩ := List.cons.inj (frames.symm.trans innermost)
          rw [pop, countPasses_frames, frames]
          exact .leave stacked
  | settle closed =>
      obtain ⟨frame, settled, outer, frames, named, closes, rfl, stacked⟩ := sane.closes closed
      exact .drive rfl (closes.name.trans named) closes.between stacked
  | reject refused =>
      cases framed with
      | foreign stacked => exact .leave stacked.pop
  | raise fault =>
      cases framed with
      | foreign stacked => exact .leave stacked.pop
  | leave =>
      cases framed with
      | leave stacked =>
          rw [unlock_frames]
          exact .back stacked
  | back =>
      cases framed with
      | back stacked => exact .foreign stacked

theorem Step.sane (step : Step before after) (sane : Sane before) : Sane after :=
  ⟨step.locked_iff sane, step.distinct sane, step.serials sane, step.framed sane⟩

theorem Steps.sane (steps : Steps before after) (sane : Sane before) : Sane after := by
  induction steps with
  | refl => exact sane
  | tail _ step ih => exact step.sane ih

/-- A session of expressions, none of which has been explored. -/
def opened (environment : Environment) (expressions : Entries (Expression σ)) : Session σ :=
  { environment, members := expressions.map fun (name, expression) => (name, { expression }) }

theorem opened_unlocked (environment : Environment) (expressions : Entries (Expression σ)) (name : String) :
    (opened environment expressions).locked? name ≠ some true := by
  rw [locked?, member?, opened]
  induction expressions with
  | nil => simp
  | cons entry rest ih =>
      rw [List.map_cons, List.lookup_cons]
      split
      · simp
      · exact ih

theorem sane_opened (environment : Environment) (expressions : Entries (Expression σ)) :
    Sane (idle (opened environment expressions)) where
  locked_iff name := iff_of_false (opened_unlocked environment expressions name) List.not_mem_nil
  distinct := .nil
  serials := List.pairwise_singleton ..
  framed := .foreign ⟨rfl, fun _ member => absurd member List.not_mem_nil⟩

end Session

end Extension
