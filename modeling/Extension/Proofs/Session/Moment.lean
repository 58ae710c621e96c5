import Mathlib.Logic.Relation
import Extension.Rule.Session

namespace Extension.Session

open Decision

/-! A session, step by step.

Beside the session stand the explorations in progress, and what is being done.  A rule is foreign code here, and so
is what stands outside all rules: between two steps of the session it may read through any accessor, call for any
exploration, return or fail, whatever it was answered before and whether or not it has caught a fault.
-/

variable {σ : Type}

/-- Is the named expression locked, if there is one? -/
def locked? (session : Session σ) (name : String) : Option Bool :=
  (session.member? name).map Member.locked

def passes? (session : Session σ) (name : String) : Option Nat :=
  (session.member? name).map fun member => member.expression.passes

inductive Control where
  /-- Foreign code runs. -/
  | foreign
  /-- It has called for an exploration. -/
  | call (name : String)
  /-- The expression is locked, and its settings are loaded next. -/
  | load
  /-- The innermost exploration is between two passes. -/
  | drive
  /-- The innermost exploration has ended, and its expression is unlocked next. -/
  | leave (outcome : Except Fault Tree)
  /-- The call comes back to the code that made it. -/
  | back (outcome : Except Fault Tree)

structure Moment (σ : Type) where
  session : Session σ
  /-- The expressions whose explorations are in progress, innermost first. -/
  calls : List String
  control : Control

/-- Outside of every exploration. -/
def idle (session : Session σ) : Moment σ :=
  ⟨session, [], .foreign⟩

inductive Step : Moment σ → Moment σ → Prop
  | aside {session : Session σ} {calls : List String} (slots : List (String × Handle)) (environment : Environment) :
      Step ⟨session, calls, .foreign⟩ ⟨{ session with slots, environment }, calls, .foreign⟩
  | read {session : Session σ} {calls : List String} (handle : Handle) (test : Test) :
      Step ⟨session, calls, .foreign⟩ ⟨(session.readThrough handle test).2, calls, .foreign⟩
  | ask {session : Session σ} {calls : List String} (name : String) :
      Step ⟨session, calls, .foreign⟩ ⟨session, calls, .call name⟩
  | unknown {session : Session σ} {calls : List String} {name : String} (absent : session.member? name = none) :
      Step ⟨session, calls, .call name⟩ ⟨session, calls, .back (.error (Rule.unknown name))⟩
  | refuse {session : Session σ} {calls : List String} {name : String} {member : Member σ}
      (found : session.member? name = some member) (locked : member.locked = true) :
      Step ⟨session, calls, .call name⟩
        ⟨session, calls, .back (.error (.alreadyCompiling member.expression.name))⟩
  | enter {session : Session σ} {calls : List String} {name : String} {member : Member σ}
      (found : session.member? name = some member) (unlocked : member.locked = false) :
      Step ⟨session, calls, .call name⟩ ⟨session.lock name, name :: calls, .load⟩
  | load {session : Session σ} {calls : List String} {name : String} {member : Member σ} {settings : Settings}
      (found : session.member? name = some member)
      (current : member.expression.currentSettings session.environment = .ok settings) :
      Step ⟨session, name :: calls, .load⟩ ⟨session.push name settings.maxAtoms, name :: calls, .drive⟩
  | unset {session : Session σ} {calls : List String} {name : String} {member : Member σ} {fault : Fault}
      (found : session.member? name = some member)
      (wrong : member.expression.currentSettings session.environment = .error fault) :
      Step ⟨session, name :: calls, .load⟩ ⟨session, name :: calls, .leave (.error fault)⟩
  | begin {session : Session σ} {calls : List String} {frame : Frame} {outer : List Frame} {assignment : Nat}
      {queue : List Nat} (frames : session.frames = frame :: outer)
      (queued : frame.exploration.queue = assignment :: queue) :
      Step ⟨session, calls, .drive⟩ ⟨session.openPass assignment, calls, .foreign⟩
  | finish {session : Session σ} {calls : List String} {name : String} {frame : Frame} {outer : List Frame}
      (frames : session.frames = frame :: outer) (empty : frame.exploration.queue = []) :
      Step ⟨session, name :: calls, .drive⟩
        ⟨(session.countPasses name frame.exploration.records.length).pop, name :: calls,
          .leave (.ok frame.exploration.tree)⟩
  | settle {session after : Session σ} {calls : List String} {name : String} {value : Value}
      (closed : session.closePass value = .ok after) :
      Step ⟨session, name :: calls, .foreign⟩ ⟨after, name :: calls, .drive⟩
  | reject {session : Session σ} {calls : List String} {name : String} {value : Value} {fault : Fault}
      (refused : session.closePass value = .error fault) :
      Step ⟨session, name :: calls, .foreign⟩ ⟨session.pop, name :: calls, .leave (.error fault)⟩
  | raise {session : Session σ} {calls : List String} {name : String} (fault : Fault) :
      Step ⟨session, name :: calls, .foreign⟩ ⟨session.pop, name :: calls, .leave (.error fault)⟩
  | leave {session : Session σ} {calls : List String} {name : String} {outcome : Except Fault Tree} :
      Step ⟨session, name :: calls, .leave outcome⟩ ⟨session.unlock name, calls, .back outcome⟩
  | back {session : Session σ} {calls : List String} {outcome : Except Fault Tree} :
      Step ⟨session, calls, .back outcome⟩ ⟨session, calls, .foreign⟩

abbrev Steps : Moment σ → Moment σ → Prop :=
  Relation.ReflTransGen Step

/-! The members of a session, after a change of one of them. -/

section Members

variable (session : Session σ) (name : String) (change : Member σ → Member σ)

@[simp] theorem updateMember_frames : (session.updateMember name change).frames = session.frames := by
  rw [updateMember]
  split <;> rfl

@[simp] theorem updateMember_begun : (session.updateMember name change).begun = session.begun := by
  rw [updateMember]
  split <;> rfl

@[simp] theorem updateMember_environment :
    (session.updateMember name change).environment = session.environment := by
  rw [updateMember]
  split <;> rfl

theorem updateMember_keys : (session.updateMember name change).members.keys = session.members.keys := by
  rw [updateMember]
  split
  · next member found => exact Entries.keys_put found _
  · rfl

@[simp] theorem updateMember_length : (session.updateMember name change).members.length = session.members.length := by
  have keys := congrArg List.length (session.updateMember_keys name change)
  rwa [Entries.keys, Entries.keys, List.length_map, List.length_map] at keys

theorem member?_updateMember (other : String) :
    (session.updateMember name change).member? other =
      if other = name then (session.member? name).map change else session.member? other := by
  cases found : session.member? name with
  | none =>
      simp only [updateMember, found, Option.map_none]
      split
      · next same => rw [same, found]
      · rfl
  | some member =>
      simp only [updateMember, found, Option.map_some]
      split
      · next same =>
          rw [same]
          exact Entries.lookup_put_self ..
      · next differ => exact Entries.lookup_put_other _ differ

variable {session name} in
theorem member?_lock {member : Member σ} (found : session.member? name = some member) :
    (session.lock name).member? name = some { member with locked := true } := by
  rw [lock, member?_updateMember, if_pos rfl, found]
  rfl

/-- What the change keeps is the same for all members. -/
theorem map_member?_updateMember {α : Type} (view : Member σ → α)
    (keeps : ∀ member, view (change member) = view member) (other : String) :
    ((session.updateMember name change).member? other).map view = (session.member? other).map view := by
  rw [member?_updateMember]
  split
  · next same =>
      rw [same, Option.map_map]
      exact congrArg (fun f => (session.member? name).map f) (funext keeps)
  · rfl

variable (other : String)

theorem locked?_lock : (session.lock name).locked? other =
    if other = name then (session.locked? name).map (fun _ => true) else session.locked? other := by
  rw [locked?, lock, member?_updateMember]
  split <;> simp [locked?, Function.comp_def]

theorem locked?_unlock : (session.unlock name).locked? other =
    if other = name then (session.locked? name).map (fun _ => false) else session.locked? other := by
  rw [locked?, unlock, member?_updateMember]
  split <;> simp [locked?, Function.comp_def]

theorem passes?_countPasses (passes : Nat) : (session.countPasses name passes).passes? other =
    if other = name then (session.passes? name).map (fun _ => passes) else session.passes? other := by
  rw [passes?, countPasses, member?_updateMember]
  split <;> simp [passes?, Function.comp_def]

variable {change} in
theorem locked?_updateMember (keeps : ∀ member, (change member).locked = member.locked) :
    (session.updateMember name change).locked? other = session.locked? other :=
  map_member?_updateMember session name change Member.locked keeps other

variable {change} in
theorem passes?_updateMember (keeps : ∀ member, (change member).expression.passes = member.expression.passes) :
    (session.updateMember name change).passes? other = session.passes? other :=
  map_member?_updateMember session name change (fun member => member.expression.passes) keeps other

@[simp] theorem locked?_countPasses (passes : Nat) :
    (session.countPasses name passes).locked? other = session.locked? other := by
  rw [countPasses, locked?_updateMember]
  exact fun _ => rfl

@[simp] theorem passes?_lock : (session.lock name).passes? other = session.passes? other := by
  rw [lock, passes?_updateMember]
  exact fun _ => rfl

@[simp] theorem passes?_unlock : (session.unlock name).passes? other = session.passes? other := by
  rw [unlock, passes?_updateMember]
  exact fun _ => rfl

@[simp] theorem locked?_openPass (assignment : Nat) :
    (session.openPass assignment).locked? other = session.locked? other := by
  rw [openPass]
  split
  · rfl
  · rw [locked?_updateMember]
    · rfl
    · exact fun _ => rfl

@[simp] theorem passes?_openPass (assignment : Nat) :
    (session.openPass assignment).passes? other = session.passes? other := by
  rw [openPass]
  split
  · rfl
  · rw [passes?_updateMember]
    · rfl
    · exact fun _ => rfl

end Members

/-! The frames of a session. -/

section Frames

variable {session : Session σ}

@[simp] theorem lock_frames (name : String) : (session.lock name).frames = session.frames :=
  updateMember_frames ..

@[simp] theorem unlock_frames (name : String) : (session.unlock name).frames = session.frames :=
  updateMember_frames ..

@[simp] theorem countPasses_frames (name : String) (passes : Nat) :
    (session.countPasses name passes).frames = session.frames :=
  updateMember_frames ..

@[simp] theorem lock_begun (name : String) : (session.lock name).begun = session.begun :=
  updateMember_begun ..

@[simp] theorem unlock_begun (name : String) : (session.unlock name).begun = session.begun :=
  updateMember_begun ..

@[simp] theorem countPasses_begun (name : String) (passes : Nat) :
    (session.countPasses name passes).begun = session.begun :=
  updateMember_begun ..

@[simp] theorem openPass_begun (assignment : Nat) : (session.openPass assignment).begun = session.begun := by
  rw [openPass]
  split
  · rfl
  · exact updateMember_begun ..

theorem openPass_frames {frame : Frame} {outer : List Frame} (frames : session.frames = frame :: outer)
    (assignment : Nat) : (session.openPass assignment).frames = frame.opened assignment :: outer := by
  simp only [openPass, frames, updateMember_frames]

theorem closePass_ok {after : Session σ} {value : Value} {frame : Frame} {outer : List Frame}
    (frames : session.frames = frame :: outer) (closed : session.closePass value = .ok after) :
    ∃ ended, frame.close value = .ok ended ∧ after = { session with frames := ended :: outer } := by
  simp only [closePass, frames] at closed
  cases ends : frame.close value with
  | error fault => simp [ends] at closed
  | ok ended =>
      simp only [ends, Except.ok.injEq] at closed
      exact ⟨ended, rfl, closed.symm⟩

theorem closePass_members {after : Session σ} {value : Value} (closed : session.closePass value = .ok after) :
    after.members = session.members ∧ after.begun = session.begun := by
  cases frames : session.frames with
  | nil =>
      simp only [closePass, frames, Except.ok.injEq] at closed
      rw [← closed]
      exact ⟨rfl, rfl⟩
  | cons frame outer =>
      obtain ⟨ended, _, rfl⟩ := closePass_ok frames closed
      exact ⟨rfl, rfl⟩

/-- A test through an accessor changes the exploration that the accessor belongs to, or nothing. -/
theorem readThrough_cases (session : Session σ) (handle : Handle) (test : Test) :
    (session.readThrough handle test).2 = session ∨
    ∃ frame pass answered, frame ∈ session.frames ∧ frame.pass = some pass ∧
      pass.read frame.exploration.tree test = .ok answered ∧
      (session.readThrough handle test).2 = session.setFrame
        { frame with exploration := { frame.exploration with tree := answered.tree }, pass := some answered.pass } := by
  cases active : session.activePass? handle with
  | none => exact .inl (by simp only [readThrough, active])
  | some found =>
      obtain ⟨frame, pass⟩ := found
      cases read : pass.read frame.exploration.tree test with
      | error fault => exact .inl (by simp only [readThrough, active, read])
      | ok answered =>
          rw [activePass?, Option.bind_eq_some_iff] at active
          obtain ⟨met, first, running⟩ := active
          obtain ⟨ran, standing, same⟩ := Option.map_eq_some_iff.mp running
          obtain ⟨rfl, rfl⟩ := Prod.mk.inj same
          refine .inr ⟨met, ran, answered, List.mem_of_find?_eq_some first, standing, read, ?_⟩
          simp only [readThrough, activePass?, first, standing, Option.bind_some, Option.map_some, read]

end Frames

end Extension.Session
