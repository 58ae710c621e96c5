import Extension.Proofs.Session.Evaluation
import Extension.Proofs.Session.Recovery
import Extension.Proofs.Session.Sparing
import Extension.Proofs.Session.Termination

namespace Extension

open Decision

/-! The bounds that every execution of a call keeps to.

Every expression explores within the capacity that it is set to when its exploration begins, whatever its code makes of
the environment meanwhile.  This limits the tests of a pass and the passes of an exploration, and there are no more
explorations in one another than there are expressions.
-/

/-- The passes that have been begun, the one that is being run included. -/
def Frame.passes (frame : Frame) : Nat :=
  frame.exploration.records.length + if frame.pass.isSome then 1 else 0

def Frame.scope (frame : Frame) : String × Nat :=
  (frame.name, frame.capacity)

namespace Session

variable {σ : Type} (step : σ → Stretch σ)

/-- What code can make of the environment. -/
abbrev Surrounds : Environment → Environment → Prop :=
  Relation.ReflTransGen fun before after => ∃ environment next, Occurs step (.change environment next) ∧
    after = environment before

/-- The capacity of an exploration is that of its expression, in the environment that it has begun in. -/
def IsSet (expressions : Entries (Expression σ)) (environment : Environment) (frame : Frame) : Prop :=
  ∃ expression settings around, expressions.lookup frame.name = some expression ∧
    Surrounds step environment around ∧ expression.currentSettings around = .ok settings ∧
    frame.capacity = settings.maxAtoms

/-- The bounds within which a session explores expressions. -/
structure Bounded (expressions : Entries (Expression σ)) (environment : Environment) (execution : Execution σ) :
    Prop where
  depth : execution.calls.length ≤ expressions.length
  frames : execution.session.frames.length ≤ execution.calls.length
  set : ∀ frame ∈ execution.session.frames, IsSet step expressions environment frame
  passes : ∀ frame ∈ execution.session.frames, frame.passes ≤ 2 ^ frame.capacity
  tests : ∀ frame ∈ execution.session.frames, ∀ pass, frame.pass = some pass → pass.transcript.length ≤ frame.capacity

section Settings

variable {step : σ → Stretch σ} {environment around : Environment}

theorem Surrounds.same (surrounds : Surrounds step environment around)
    (never : ∀ change next, ¬ Occurs step (.change change next)) : around = environment := by
  induction surrounds with
  | refl => rfl
  | tail _ changed ih =>
      obtain ⟨change, next, occurs, _⟩ := changed
      exact absurd occurs (never change next)

/-- Code that leaves the environment as it is explores with the settings of that one. -/
theorem IsSet.unchanged {expressions : Entries (Expression σ)} {frame : Frame}
    (set : IsSet step expressions environment frame) (never : ∀ change next, ¬ Occurs step (.change change next)) :
    ∃ expression settings, expressions.lookup frame.name = some expression ∧
      expression.currentSettings environment = .ok settings ∧ frame.capacity = settings.maxAtoms := by
  obtain ⟨expression, settings, around, listed, surrounds, current, capacity⟩ := set
  rw [surrounds.same never] at current
  exact ⟨expression, settings, listed, current, capacity⟩

end Settings

section Frames

variable {frame : Frame} {frames : List Frame} {calls : List String} {control : Control}

theorem Stacked.length {frames : List Frame} (stacked : Stacked frames calls) : frames.length = calls.length := by
  rw [← stacked.names, List.length_map]

theorem Framed.length_le (framed : Framed frames calls control) : frames.length ≤ calls.length := by
  cases framed with
  | foreign stacked | call stacked | back stacked => exact Nat.le_of_eq stacked.length
  | load stacked | leave stacked =>
      rw [stacked.length]
      exact Nat.le_succ _
  | drive innermost _ _ stacked => simp [innermost, stacked.length]

theorem Framed.cases (framed : Framed frames calls control) (member : frame ∈ frames) :
    frame.IsRunning ∨ frame.IsBetween := by
  cases framed with
  | foreign stacked | call stacked | load stacked | leave stacked | back stacked =>
      exact .inl (stacked.running frame member)
  | drive innermost _ between stacked =>
      rw [innermost] at member
      rcases List.mem_cons.mp member with rfl | member
      · exact .inr between
      · exact .inl (stacked.running frame member)

theorem Framed.passes_le (framed : Framed frames calls control) (member : frame ∈ frames) :
    frame.passes ≤ 2 ^ frame.capacity := by
  rcases framed.cases member with ⟨pass, standing, underway⟩ | between
  · simpa [Frame.passes, standing] using Nat.succ_le_of_lt underway.records_lt
  · have bound := between.accounted.count_le
    rw [Frame.passes, between.none]
    simp only [Option.isSome_none, Bool.false_eq_true, if_false, Nat.add_zero]
    omega

theorem Framed.underway (framed : Framed frames calls control) (member : frame ∈ frames) {pass : Pass}
    (running : frame.pass = some pass) : Underway frame.capacity frame.exploration pass := by
  rcases framed.cases member with ⟨found, standing, underway⟩ | between
  · obtain rfl := Option.some.inj (standing.symm.trans running)
    exact underway
  · rw [between.none] at running
    cases running

end Frames

variable {expressions : Entries (Expression σ)} {environment : Environment}

/-- The explorations in progress are of different expressions of the session. -/
theorem Sane.calls_le {moment : Moment σ} (sane : Sane moment) (ready : Ready expressions moment.session moment.calls) :
    moment.calls.length ≤ expressions.length := by
  have known : moment.calls ⊆ expressions.keys := by
    intro name inside
    obtain ⟨member, found, _⟩ := Option.map_eq_some_iff.mp ((sane.locked_iff name).mpr inside)
    have listed := ready.known name
    rw [expression?, found] at listed
    obtain ⟨expression, there, _⟩ := Option.map_eq_some_iff.mp listed.symm
    exact Entries.mem_keys_of_lookup there
  have bound := (List.subperm_of_subset sane.distinct known).length_le
  rwa [Entries.keys, List.length_map] at bound

/-- A member loads the settings that its expression says. -/
theorem Ready.settings {session : Session σ} {calls : List String} {name : String} {member : Member σ}
    (ready : Ready expressions session calls) (found : session.member? name = some member)
    (environment : Environment) : ∃ expression, expressions.lookup name = some expression ∧
      member.expression.currentSettings environment = expression.currentSettings environment := by
  have known := ready.known name
  rw [expression?, found] at known
  obtain ⟨expression, listed, fixed⟩ := Option.map_eq_some_iff.mp known.symm
  have same := congrArg (fun fixed : Expression σ => fixed.currentSettings environment) fixed
  exact ⟨expression, listed, same.symm⟩

/-- The environment is one that code can have made, and each exploration has the capacity that its expression was set
to. -/
structure Held (expressions : Entries (Expression σ)) (environment : Environment) (session : Session σ) : Prop where
  around : Surrounds step environment session.environment
  set : ∀ frame ∈ session.frames, IsSet step expressions environment frame

variable {step : σ → Stretch σ}

namespace Held

variable {session after : Session σ}

theorem of_scopes (held : Held step expressions environment session)
    (around : Surrounds step environment after.environment)
    (scopes : after.frames.map Frame.scope ⊆ session.frames.map Frame.scope) :
    Held step expressions environment after where
  around
  set frame member := by
    obtain ⟨old, there, scope⟩ := List.mem_map.mp (scopes (List.mem_map_of_mem member))
    obtain ⟨named, limit⟩ := Prod.mk.inj scope
    rw [IsSet, ← named, ← limit]
    exact held.set old there

theorem pop (held : Held step expressions environment session) : Held step expressions environment session.pop where
  around := held.around
  set frame member := held.set frame (List.mem_of_mem_tail member)

theorem updateMember (held : Held step expressions environment session) (name : String)
    (change : Member σ → Member σ) : Held step expressions environment (session.updateMember name change) :=
  held.of_scopes (by rw [updateMember_environment]; exact held.around)
    (by rw [updateMember_frames]; exact List.Subset.refl _)

theorem read (held : Held step expressions environment session) {handle : Handle} {test : Test}
    {outcome : Except Fault Bool} (distinct : (session.frames.map Frame.serial).Nodup)
    (read : session.readThrough handle test = (outcome, after)) : Held step expressions environment after := by
  obtain rfl : (session.readThrough handle test).2 = after := congrArg Prod.snd read
  rcases session.readThrough_cases handle test with same | ⟨frame, pass, answered, member, standing, read, same⟩
  · rw [same]
    exact held
  · rw [same]
    refine held.of_scopes held.around (List.Perm.subset (.of_eq ?_))
    exact setFrame_map Frame.scope distinct member rfl rfl

theorem openPass (held : Held step expressions environment session) (assignment : Nat) {frame : Frame}
    {outer : List Frame} (frames : session.frames = frame :: outer) :
    Held step expressions environment (session.openPass assignment) := by
  refine held.of_scopes ?_ ?_
  · rw [(Spares.openPass session assignment).environment]
    exact held.around
  · rw [openPass_frames frames, frames]
    exact List.Subset.refl _

theorem goes (held : Held step expressions environment session) {own : Handle} {stretch next : Stretch σ}
    (distinct : (session.frames.map Frame.serial).Nodup) (occurs : Occurs step stretch)
    (goes : Goes own session stretch after next) : Held step expressions environment after := by
  cases goes with
  | read read => exact held.read distinct read
  | remember accessor slot next => exact ⟨held.around, held.set⟩
  | «recall» found => exact held
  | change change next => exact ⟨held.around.tail ⟨change, next, occurs, rfl⟩, held.set⟩

theorem fails (held : Held step expressions environment session) {own : Handle} {stretch : Stretch σ} {fault : Fault}
    (distinct : (session.frames.map Frame.serial).Nodup) (fails : Fails own session stretch after fault) :
    Held step expressions environment after := by
  cases fails with
  | test read => exact held.read distinct read
  | read read => exact held.read distinct read
  | «recall» | raise | finish => exact held

end Held

variable {begins : Member σ → σ → Prop} {first before after execution : Execution σ}

theorem Proceeds.held (proceeds : Proceeds step begins before after) (sane : Sane before.moment)
    (ready : Ready expressions before.session before.calls) (rooted : Rooted step before)
    (held : Held step expressions environment before.session) :
    Held step expressions environment after.session := by
  have distinct := serials_nodup sane.serials
  cases proceeds with
  | compile | unknown | refuse | unset | resume => exact held
  | unwind => exact held.pop
  | enter | leave => exact held.updateMember _ _
  | go innermost goes => exact held.goes distinct (rooted.code _ rfl) goes
  | test innermost read => exact held.read distinct read
  | fail innermost fails => exact (held.fails distinct fails).pop
  | begin innermost => exact held.openPass _ innermost
  | finish innermost empty => exact (held.updateMember _ _).pop
  | @settle session after calls waiting name value closed =>
      obtain ⟨frame, settled, outer, frames, _, closes, rfl, _⟩ := sane.closes closed
      have scope : settled.scope = frame.scope := by rw [Frame.scope, Frame.scope, closes.name, closes.capacity]
      refine held.of_scopes held.around ?_
      change session.frames = _ at frames
      rw [frames, List.map_cons, List.map_cons, scope]
      exact List.Subset.refl _
  | @load session calls waiting name member settings found current =>
      refine ⟨held.around, fun frame there => ?_⟩
      rcases List.mem_cons.mp there with rfl | there
      · obtain ⟨expression, listed, same⟩ := ready.settings found session.environment
        exact ⟨expression, settings, session.environment, listed, held.around, same.symm.trans current, rfl⟩
      · exact held.set frame there

/-! An execution goes on until the call from outside comes back. -/

/-- All code that waits does so for an exploration of its own. -/
def Execution.IsPaired (execution : Execution σ) : Prop :=
  match execution.doing with
  | .call _ | .back _ => execution.waiting.length = execution.calls.length
  | _ => execution.waiting.length + 1 = execution.calls.length

/-- The call from outside has come back, with a result or with a fault. -/
def Execution.IsOver (execution : Execution σ) : Prop :=
  ∃ session outcome, execution = ⟨session, [], [], .back outcome⟩

theorem Proceeds.paired (proceeds : Proceeds step begins before after) (paired : before.IsPaired) :
    after.IsPaired := by
  cases proceeds with
  | leave => exact Nat.succ.inj paired
  | enter found unlocked => exact congrArg Nat.succ paired
  | _ => exact paired

theorem Reaches.paired (reaches : Reaches step begins first execution) (paired : first.IsPaired) :
    execution.IsPaired := by
  induction reaches with
  | refl => exact paired
  | tail _ proceeds ih => exact proceeds.paired ih

theorem code_proceeds {session : Session σ} {name : String} {calls : List String} (waiting : List (String → Stretch σ))
    (sane : Sane ⟨session, name :: calls, .foreign⟩) (stretch : Stretch σ) :
    ∃ after, Proceeds step begins ⟨session, name :: calls, waiting, .code stretch⟩ after := by
  cases sane.framed with
  | foreign stacked =>
      obtain ⟨frame, outer, innermost, _⟩ := stacked.cons
      cases stretch with
      | read test next =>
          rcases read : session.readThrough frame.handle test with ⟨fault | answer, after⟩
          · exact ⟨_, .fail innermost (.test read)⟩
          · exact ⟨_, .test innermost read⟩
      | finish value =>
          cases closed : session.closePass value with
          | error fault => exact ⟨_, .fail innermost (.finish closed)⟩
          | ok after => exact ⟨_, .settle closed⟩
      | raise fault => exact ⟨_, .fail innermost (.raise fault)⟩
      | readRemembered handle test next =>
          rcases read : session.readThrough handle test with ⟨fault | answer, after⟩
          · exact ⟨_, .fail innermost (.read read)⟩
          · exact ⟨_, .go innermost (.read read)⟩
      | compile callee next => exact ⟨_, .compile⟩
      | remember accessor slot next => exact ⟨_, .go innermost (.remember accessor slot next)⟩
      | «recall» slot next =>
          cases found : session.slots.lookup slot with
          | none => exact ⟨_, .fail innermost (.recall found)⟩
          | some handle => exact ⟨_, .go innermost (.recall found)⟩
      | change environment next => exact ⟨_, .go innermost (.change environment next)⟩

theorem Sane.member {moment : Moment σ} (sane : Sane moment) {name : String} (inside : name ∈ moment.calls) :
    ∃ member, moment.session.member? name = some member := by
  obtain ⟨member, found, _⟩ := Option.map_eq_some_iff.mp ((sane.locked_iff name).mpr inside)
  exact ⟨member, found⟩

/-- Nothing but its end holds up an execution. -/
theorem over_or_proceeds (starts : ∀ member, ∃ state, begins member state) (sane : Sane execution.moment)
    (paired : execution.IsPaired) : execution.IsOver ∨ ∃ after, Proceeds step begins execution after := by
  obtain ⟨session, calls, waiting, doing⟩ := execution
  cases doing with
  | code stretch =>
      obtain ⟨name, calls, rfl⟩ := List.exists_cons_of_length_eq_add_one paired.symm
      exact .inr (code_proceeds waiting sane stretch)
  | call name =>
      right
      cases found : session.member? name with
      | none => exact ⟨_, .unknown found⟩
      | some member =>
          cases locked : member.locked with
          | true => exact ⟨_, .refuse found locked⟩
          | false => exact ⟨_, .enter found locked⟩
  | load =>
      obtain ⟨name, calls, rfl⟩ := List.exists_cons_of_length_eq_add_one paired.symm
      obtain ⟨member, found⟩ := sane.member (List.mem_cons_self ..)
      cases current : member.expression.currentSettings session.environment with
      | error fault => exact .inr ⟨_, .unset found current⟩
      | ok settings => exact .inr ⟨_, .load found current⟩
  | drive =>
      right
      cases sane.framed with
      | @drive frame outer calls name innermost named between stacked =>
          cases queued : frame.exploration.queue with
          | nil => exact ⟨_, .finish innermost queued⟩
          | cons assignment queue =>
              obtain ⟨member, found⟩ := sane.member (List.mem_cons_self ..)
              obtain ⟨state, begun⟩ := starts member
              exact ⟨_, .begin innermost queued (named ▸ found) begun⟩
  | leave outcome =>
      obtain ⟨name, calls, rfl⟩ := List.exists_cons_of_length_eq_add_one paired.symm
      exact .inr ⟨_, .leave⟩
  | back outcome =>
      cases waiting with
      | nil =>
          obtain rfl := List.eq_nil_of_length_eq_zero paired.symm
          exact .inl ⟨session, outcome, rfl⟩
      | cons next waiting =>
          obtain ⟨name, calls, rfl⟩ := List.exists_cons_of_length_eq_add_one paired.symm
          cases outcome with
          | error fault => exact .inr ⟨_, .unwind⟩
          | ok tree => exact .inr ⟨_, .resume⟩

/-- A call from outside keeps to its bounds and comes back, in whatever states the calls of rules start. -/
structure EndsWithin (step : σ → Stretch σ) (begins : Member σ → σ → Prop) (expressions : Entries (Expression σ))
    (session : Session σ) (name : String) : Prop where
  finite : ¬ ∃ run : Nat → Execution σ, run 0 = asked session name ∧
    ∀ count, Proceeds step begins (run count) (run (count + 1))
  bounded : ∀ execution, Reaches step begins (asked session name) execution →
    Bounded step expressions session.environment execution
  /-- If no code changes the environment, the capacities are those that the environment of the session sets. -/
  unchanged : (∀ change next, ¬ Occurs step (.change change next)) → ∀ execution,
    Reaches step begins (asked session name) execution → ∀ frame ∈ execution.session.frames,
      ∃ expression settings, expressions.lookup frame.name = some expression ∧
        expression.currentSettings session.environment = .ok settings ∧ frame.capacity = settings.maxAtoms
  returns : (∀ member, ∃ state, begins member state) → ∀ execution, Reaches step begins (asked session name) execution →
    execution.IsOver ∨ ∃ after, Proceeds step begins execution after

section Calls

variable {session : Session σ}

theorem asked_ready (steps : Steps (idle (opened environment expressions)) (idle session)) {name : String}
    (reaches : Reaches step begins (asked session name) execution) :
    Sane execution.moment ∧ Ready expressions execution.session execution.calls := by
  have called : Step (idle session) (asked session name).moment := .ask name
  have sane := Steps.sane (steps.tail called) (sane_opened environment expressions)
  exact ⟨reaches.sane sane, .of_steps ((steps.tail called).trans (reaches.steps sane))⟩

theorem asked_held (steps : Steps (idle (opened environment expressions)) (idle session)) {name : String}
    (reaches : Reaches step begins (asked session name) execution) :
    Held step expressions session.environment execution.session := by
  induction reaches with
  | refl =>
      have sane := Steps.sane steps (sane_opened environment expressions)
      have none : session.frames = [] := List.eq_nil_of_length_eq_zero (Nat.le_zero.mp sane.framed.length_le)
      exact ⟨.refl, by simp [asked, none]⟩
  | tail reached proceeds ih =>
      obtain ⟨sane, ready⟩ := asked_ready steps reached
      exact proceeds.held sane ready (Reaches.rooted reached ⟨nofun, nofun⟩) ih

theorem Bounded.of_reaches (steps : Steps (idle (opened environment expressions)) (idle session)) {name : String}
    (reaches : Reaches step begins (asked session name) execution) :
    Bounded step expressions session.environment execution := by
  obtain ⟨sane, ready⟩ := asked_ready steps reaches
  exact {
    depth := sane.calls_le ready
    frames := sane.framed.length_le
    set := (asked_held steps reaches).set
    passes := fun _ => sane.framed.passes_le
    tests := fun _ member _ running => (sane.framed.underway member running).length_le }

/-- In a session of finitely many expressions, every call for one of them ends within the capacities of all.  What is
explored is the outcome of such a call, and compiling gives its clause. -/
theorem calls_end_within (step : σ → Stretch σ)
    (steps : Steps (idle (opened environment expressions)) (idle session)) (name : String) :
    (∀ begins : Member σ → σ → Prop, EndsWithin step begins expressions session name) ∧
    Evaluates step (asked session name)
      ⟨(session.explore step name).2, [], [], .back (session.explore step name).1⟩ ∧
    (session.compile step name).1 = (session.explore step name).1.map Tree.clause := by
  have sane := steps.sane (sane_opened environment expressions)
  have called : Step (idle session) (asked session name).moment := .ask name
  refine ⟨fun begins => ⟨?_, ?_, ?_, ?_⟩, explore_evaluates step sane name, rfl⟩
  · exact (asked_ends sane name).not_endless
  · exact fun execution reaches => .of_reaches steps reaches
  · exact fun never execution reaches frame member => ((asked_held steps reaches).set frame member).unchanged never
  · exact fun starts execution reaches => over_or_proceeds starts (reaches.sane (called.sane sane)) (reaches.paired rfl)

/-- The call of an expression that compiles itself in a circle ends, too. -/
theorem circle_ends_within :
    (¬ ∃ run : Nat → Execution Script, run 0 = asked (opened [] circular) "a" ∧
      ∀ count, Proceeds Script.stretch Member.IsStart (run count) (run (count + 1))) ∧
    ∃ after, Evaluates Script.stretch (asked (opened [] circular) "a")
      ⟨after, [], [], .back (.error (.alreadyCompiling "a"))⟩ := by
  have refused : ((opened [] circular).explore Script.stretch "a").1 = .error (.alreadyCompiling "a") := by rfl
  have steps : Steps (idle (opened [] circular)) (idle (opened [] circular)) := .refl
  obtain ⟨ends, evaluates, _⟩ := calls_end_within Script.stretch steps "a"
  rw [refused] at evaluates
  exact ⟨(ends Member.IsStart).finite, _, evaluates⟩

end Calls

end Session

end Extension
