import Mathlib.Data.List.Perm.Subperm
import Extension.Proofs.Decision.Repetition
import Extension.Proofs.Session.Passes

namespace Extension

open Decision

/-! Exploring an expression of a session takes the steps that have been described.

No rule knows of the explorations further out, so that all they keep while it runs is said here too: only their trees
and the places of their passes change.  The bounds on the depth of nested explorations and on the number of
passes are never reached.
-/

/-- What an exploration keeps while code runs in the middle of its pass. -/
def Frame.fixed (frame : Frame) : Frame :=
  { frame with exploration := { frame.exploration with tree := .empty }, pass := none }

namespace Session

variable {σ : Type}

/-- Steps after which at least so many explorations are in progress, and the explorations that were in progress
before are the same afterwards. -/
structure Leads (level : Nat) (first last : Moment σ) : Prop where
  within : Within level first last
  fixed : last.session.frames.map Frame.fixed = first.session.frames.map Frame.fixed

namespace Leads

variable {level : Nat} {first middle last : Moment σ}

theorem refl (level : Nat) (moment : Moment σ) : Leads level moment moment :=
  ⟨.refl, rfl⟩

theorem trans (left : Leads level first middle) (right : Leads level middle last) : Leads level first last :=
  ⟨left.within.trans right.within, right.fixed.trans left.fixed⟩

theorem single (step : Step first last) (deep : level ≤ last.calls.length)
    (fixed : last.session.frames.map Frame.fixed = first.session.frames.map Frame.fixed) : Leads level first last :=
  ⟨.single ⟨step, deep⟩, fixed⟩

theorem sane (leads : Leads level first last) (sane : Sane first) : Sane last :=
  (Within.steps leads.within).sane sane

theorem mono {fewer : Nat} (leads : Leads level first last) (le : fewer ≤ level) : Leads fewer first last :=
  ⟨Within.mono leads.within le, leads.fixed⟩

end Leads

/-- No expression is added or removed. -/
theorem Step.keys {before after : Moment σ} (step : Step before after) :
    after.session.members.keys = before.session.members.keys := by
  cases step with
  | read handle test => rw [(readThrough_members _ handle test).1]
  | settle closed => rw [(closePass_members closed).1]
  | enter found unlocked => exact updateMember_keys ..
  | leave => exact updateMember_keys ..
  | finish frames empty => exact updateMember_keys ..
  | begin frames queued =>
      simp only [openPass, frames]
      exact updateMember_keys ..
  | _ => rfl

theorem Steps.members_length {before after : Moment σ} (steps : Steps before after) :
    after.session.members.length = before.session.members.length := by
  have same : after.session.members.keys = before.session.members.keys := by
    induction steps with
    | refl => rfl
    | tail _ step ih => rw [step.keys, ih]
  simpa [Entries.keys] using congrArg List.length same

/-- The explorations in progress are of different expressions, and one that is not locked is another one. -/
theorem calls_length_lt {session : Session σ} {calls : List String} {name : String} {member : Member σ}
    (locked_iff : ∀ name, session.locked? name = some true ↔ name ∈ calls) (distinct : calls.Nodup)
    (found : session.member? name = some member) (unlocked : member.locked = false) :
    calls.length < session.members.length := by
  have outside := not_mem_of_unlocked locked_iff found unlocked
  have known : name :: calls ⊆ session.members.keys := by
    refine List.cons_subset.mpr ⟨Entries.mem_keys_of_lookup found, fun other inside => ?_⟩
    obtain ⟨held, there, _⟩ := Option.map_eq_some_iff.mp ((locked_iff other).mpr inside)
    exact Entries.mem_keys_of_lookup there
  have bound := (List.subperm_of_subset (List.nodup_cons.mpr ⟨outside, distinct⟩) known).length_le
  rw [Entries.keys, List.length_map] at bound
  exact bound

/-- What a call for an exploration comes to, made while others are in progress. -/
inductive Serves (session : Session σ) (calls : List String) (name : String) : Reached σ Tree → Prop
  | unknown (absent : session.member? name = none) : Serves session calls name (.error (Rule.unknown name), session)
  | refused {member : Member σ} (found : session.member? name = some member) (locked : member.locked = true) :
      Serves session calls name (.error (.alreadyCompiling member.expression.name), session)
  | explored {member : Member σ} {ended : Session σ} {outcome : Except Fault Tree}
      (found : session.member? name = some member) (unlocked : member.locked = false)
      (leads : Leads (calls.length + 1) ⟨session.lock name, name :: calls, .load⟩
        ⟨ended, name :: calls, .leave outcome⟩) :
      Serves session calls name (outcome, ended.unlock name)

theorem Serves.leads {session : Session σ} {calls : List String} {name : String} {result : Reached σ Tree}
    (serves : Serves session calls name result) :
    Leads calls.length ⟨session, calls, .call name⟩ ⟨result.2, calls, .back result.1⟩ := by
  cases serves with
  | unknown absent => exact .single (.unknown absent) (Nat.le_refl _) rfl
  | refused found locked => exact .single (.refuse found locked) (Nat.le_refl _) rfl
  | @explored member ended outcome found unlocked leads =>
      have entered : Leads calls.length ⟨session, calls, .call name⟩ ⟨session.lock name, name :: calls, .load⟩ :=
        .single (.enter found unlocked) (Nat.le_succ _) (by rw [lock_frames])
      have left : Leads calls.length ⟨ended, name :: calls, .leave outcome⟩ ⟨ended.unlock name, calls, .back outcome⟩ :=
        .single .leave (Nat.le_refl _) (by rw [unlock_frames])
      exact entered.trans ((leads.mono (Nat.le_succ _)).trans left)

/-- Compiling takes the steps of a call, as long as no more than so many expressions are unlocked. -/
def Nests (nested : String → Session σ → Reached σ String) (depth : Nat) : Prop :=
  ∀ (name : String) (session : Session σ) (calls : List String), Sane ⟨session, calls, .call name⟩ →
    session.members.length ≤ depth + calls.length →
      ∃ outcome, Leads calls.length ⟨session, calls, .call name⟩ ⟨(nested name session).2, calls, .back outcome⟩

section Rules

variable {nested : String → Session σ → Reached σ String} {depth : Nat} {session : Session σ} {calls : List String}

theorem readThrough_leads (handle : Handle) (test : Test) (sane : Sane ⟨session, calls, .foreign⟩) :
    Leads calls.length ⟨session, calls, .foreign⟩ ⟨(session.readThrough handle test).2, calls, .foreign⟩ := by
  refine .single (.read handle test) (Nat.le_refl _) ?_
  rcases session.readThrough_cases handle test with same | ⟨frame, pass, answered, member, standing, read, same⟩
  · rw [same]
  · rw [same]
    exact setFrame_map Frame.fixed (serials_nodup sane.serials) member rfl rfl

/-- Running a rule as far as it goes by itself is a matter of foreign code. -/
theorem runStretch_leads (nests : Nests nested depth) (own : Option Handle) (stretch : Stretch σ)
    (sane : Sane ⟨session, calls, .foreign⟩) (room : session.members.length ≤ depth + calls.length) :
    Leads calls.length ⟨session, calls, .foreign⟩ ⟨(runStretch nested own stretch session).2, calls, .foreign⟩ := by
  induction stretch generalizing session with
  | read test next => exact .refl ..
  | finish value => exact .refl ..
  | raise fault => exact .refl ..
  | readRemembered handle test next ih =>
      have read := readThrough_leads handle test sane
      rw [runStretch]
      generalize session.readThrough handle test = result at read ⊢
      obtain ⟨fault | answer, reached⟩ := result
      · exact read
      · exact read.trans (ih answer (read.sane sane) (by rwa [(Within.steps read.within).members_length]))
  | compile name next ih =>
      have asked : Leads calls.length ⟨session, calls, .foreign⟩ ⟨session, calls, .call name⟩ :=
        .single (.ask name) (Nat.le_refl _) rfl
      obtain ⟨outcome, served⟩ := nests name session calls (asked.sane sane) room
      have back : Leads calls.length ⟨(nested name session).2, calls, .back outcome⟩
          ⟨(nested name session).2, calls, .foreign⟩ := .single .back (Nat.le_refl _) rfl
      have compiled := asked.trans (served.trans back)
      rw [runStretch]
      generalize nested name session = result at compiled ⊢
      obtain ⟨fault | clause, reached⟩ := result
      · exact compiled
      · exact compiled.trans (ih clause (compiled.sane sane) (by rwa [(Within.steps compiled.within).members_length]))
  | remember accessor slot next ih =>
      have aside (slots : List (String × Handle)) :
          Leads calls.length ⟨session, calls, .foreign⟩ ⟨{ session with slots }, calls, .foreign⟩ :=
        .single (.aside slots session.environment) (Nat.le_refl _) rfl
      exact (aside _).trans (ih ((aside _).sane sane) room)
  | «recall» slot next ih =>
      rw [runStretch]
      split
      · next handle found => exact ih handle sane room
      · exact .refl ..
  | change environment next ih =>
      have aside : Leads calls.length ⟨session, calls, .foreign⟩
          ⟨{ session with environment := environment session.environment }, calls, .foreign⟩ :=
        .single (.aside session.slots _) (Nat.le_refl _) rfl
      exact aside.trans (ih (aside.sane sane) room)

variable (step : σ → Stretch σ)

/-- Running a rule to its end is a matter of foreign code, too. -/
theorem runCall_leads (nests : Nests nested depth) (own : Handle) (budget : Nat) (state : σ)
    (sane : Sane ⟨session, calls, .foreign⟩) (room : session.members.length ≤ depth + calls.length) :
    Leads calls.length ⟨session, calls, .foreign⟩
      ⟨(runCall step nested own budget state session).2, calls, .foreign⟩ := by
  have stretched {state : σ} {session reached : Session σ} {outcome : Except Fault (Ending σ)}
      (sane : Sane ⟨session, calls, .foreign⟩) (room : session.members.length ≤ depth + calls.length)
      (ran : runStretch nested (some own) (step state) session = (outcome, reached)) :
      Leads calls.length ⟨session, calls, .foreign⟩ ⟨reached, calls, .foreign⟩ := by
    have led := runStretch_leads nests (some own) (step state) sane room
    rwa [ran] at led
  have asked {session after : Session σ} {test : Test} {outcome : Except Fault Bool}
      (sane : Sane ⟨session, calls, .foreign⟩) (read : session.readThrough own test = (outcome, after)) :
      Leads calls.length ⟨session, calls, .foreign⟩ ⟨after, calls, .foreign⟩ := by
    have led := readThrough_leads own test sane
    rwa [read] at led
  fun_induction runCall step nested own budget state session with
  | case1 budget state session fault reached ran => exact stretched sane room ran
  | case2 budget state session value reached ran => exact stretched sane room ran
  | case3 budget state session test next reached ran fault after refused =>
      have led := stretched sane room ran
      exact led.trans (asked (led.sane sane) refused)
  | case4 state session test next reached ran answer after answered =>
      have led := stretched sane room ran
      exact led.trans (asked (led.sane sane) answered)
  | case5 state session test next reached ran answer after answered budget ih =>
      have led := stretched sane room ran
      have moved := led.trans (asked (led.sane sane) answered)
      exact moved.trans (ih (moved.sane sane) (by rwa [(Within.steps moved.within).members_length]))

/-- The passes of an exploration that is being driven, so many of which have ended. -/
inductive Driven (first : Moment σ) (name : String) (calls : List String) (capacity : Nat) (outer : List Frame) :
    Nat → Driving σ → Prop
  | between {count : Nat} {session : Session σ} {frame : Frame} {rest : List Frame}
      (within : Within (calls.length + 1) first ⟨session, name :: calls, .drive⟩)
      (frames : session.frames = frame :: rest) (limit : frame.capacity = capacity)
      (counted : frame.exploration.records.length = count) (fixed : rest.map Frame.fixed = outer.map Frame.fixed) :
      Driven first name calls capacity outer count { session }
  | failed {count : Nat} {session : Session σ} {fault : Fault}
      (within : Within (calls.length + 1) first ⟨session.pop, name :: calls, .leave (.error fault)⟩)
      (fixed : session.pop.frames.map Frame.fixed = outer.map Frame.fixed) :
      Driven first name calls capacity outer count { session, fault := some fault }

variable {first : Moment σ} {name : String} {capacity count : Nat} {outer : List Frame} {driving : Driving σ}

/-- When a pass ends with a fault, its exploration does. -/
theorem Driven.broken {after : Session σ} {fault : Fault} {frame : Frame}
    (reached : Within (calls.length + 1) first ⟨after, name :: calls, .foreign⟩)
    (kept : after.frames.map Frame.fixed = frame.fixed :: outer.map Frame.fixed)
    (left : Step ⟨after, name :: calls, .foreign⟩ ⟨after.pop, name :: calls, .leave (.error fault)⟩) :
    Driven first name calls capacity outer count { session := after, fault := some fault } := by
  refine .failed (reached.tail ⟨left, Nat.le_refl _⟩) ?_
  rw [pop, List.map_tail, kept, List.tail_cons]

/-- When a pass ends without a fault, one more is counted. -/
theorem Driven.settled {after ended : Session σ} {value : Value} {frame : Frame} (sane : Sane first)
    (reached : Within (calls.length + 1) first ⟨after, name :: calls, .foreign⟩)
    (kept : after.frames.map Frame.fixed = frame.fixed :: outer.map Frame.fixed)
    (closed : after.closePass value = .ok ended) :
    Driven first name calls frame.capacity outer (frame.exploration.records.length + 1) { session := ended } := by
  have settles : Step ⟨after, name :: calls, .foreign⟩ ⟨ended, name :: calls, .drive⟩ := .settle closed
  obtain ⟨met, settled, below, standing, _, closes, same, _⟩ := ((Within.steps reached).sane sane).closes closed
  change after.frames = met :: below at standing
  rw [standing, List.map_cons, List.cons.injEq] at kept
  have capacity : met.capacity = frame.capacity := congrArg (fun fixed => fixed.capacity) kept.1
  have records := congrArg (fun fixed => fixed.exploration.records.length) kept.1
  refine .between (reached.tail ⟨settles, Nat.le_refl _⟩) (by rw [same]) ?_ ?_ kept.2
  · exact closes.capacity.trans capacity
  · exact closes.counted.trans (congrArg (· + 1) records)

theorem Driven.next (nests : Nests nested depth) (sane : Sane first)
    (room : first.session.members.length ≤ depth + (calls.length + 1))
    (driven : Driven first name calls capacity outer count driving) (busy : driving.isBusy = true) :
    Driven first name calls capacity outer (count + 1) (runNextPass step nested driving) := by
  cases driven with
  | failed => simp [Driving.isBusy] at busy
  | @between session frame rest within frames limit counted fixed =>
      have here := (Within.steps within).sane sane
      cases queued : frame.exploration.queue with
      | nil => simp [Driving.isBusy, frames, queued] at busy
      | cons assignment queue =>
          have named : frame.name = name := by
            cases here.framed with
            | drive innermost named =>
                obtain ⟨rfl, rfl⟩ := List.cons.inj (frames.symm.trans innermost)
                exact named
          obtain ⟨member, found, _⟩ := Option.map_eq_some_iff.mp ((here.locked_iff name).mpr (List.mem_cons_self ..))
          have begun : Step ⟨session, name :: calls, .drive⟩ ⟨session.openPass assignment, name :: calls, .foreign⟩ :=
            .begin frames queued
          have opened := within.tail ⟨begun, Nat.le_refl _⟩
          have length := (Within.steps opened).members_length
          simp only [runNextPass, frames, queued, named, found]
          have ran := runCall_leads step nests frame.handle frame.capacity
            (member.expression.start (member.expression.calls + 1)) ((Within.steps opened).sane sane)
            (Nat.le_trans (Nat.le_of_eq length) room)
          have kept := ran.fixed
          rw [openPass_frames frames, List.map_cons, fixed] at kept
          generalize runCall step nested frame.handle frame.capacity
            (member.expression.start (member.expression.calls + 1)) (session.openPass assignment) = result at ran kept ⊢
          have reached := opened.trans ran.within
          rw [← limit, ← counted]
          obtain ⟨fault | value, after⟩ := result
          · exact .broken reached kept (.raise fault)
          · cases closed : after.closePass value with
            | error fault =>
                simp only [closed]
                exact .broken reached kept (.reject closed)
            | ok ended =>
                simp only [closed]
                exact .settled sane reached kept closed

/-- An exploration that is driven comes to its end. -/
theorem Driven.ended (nests : Nests nested depth) (sane : Sane first)
    (room : first.session.members.length ≤ depth + (calls.length + 1))
    (driven : Driven first name calls capacity outer 0 driving) :
    ∃ count, Driven first name calls capacity outer count
      (settle Driving.isBusy (runNextPass step nested) (capacity + 1) 0 driving) ∧
    (settle Driving.isBusy (runNextPass step nested) (capacity + 1) 0 driving).isBusy = false := by
  have passes (total : Nat) : ∃ count, Driven first name calls capacity outer count
      (Nat.repeat (stepIfBusy Driving.isBusy (runNextPass step nested)) total driving) ∧
      ((Nat.repeat (stepIfBusy Driving.isBusy (runNextPass step nested)) total driving).isBusy = true →
        count = total) := by
    induction total with
    | zero => exact ⟨0, driven, fun _ => rfl⟩
    | succ total ih =>
        obtain ⟨count, driven, counted⟩ := ih
        rw [Nat.repeat, stepIfBusy]
        split
        · next busy => exact ⟨count + 1, driven.next step nests sane room busy, fun _ => by rw [counted busy]⟩
        · next done => exact ⟨count, driven, fun busy => absurd busy done⟩
  rw [settle_eq_repeat, Nat.zero_add, Nat.pow_zero]
  obtain ⟨count, driven, counted⟩ := passes (2 ^ (capacity + 1) - 1)
  generalize Nat.repeat (stepIfBusy Driving.isBusy (runNextPass step nested)) (2 ^ (capacity + 1) - 1) driving =
    driving at driven counted ⊢
  refine ⟨count, driven, Bool.eq_false_iff.mpr fun busy => ?_⟩
  cases driven with
  | failed => simp [Driving.isBusy] at busy
  | @between session frame rest within frames limit recorded fixed =>
      cases queued : frame.exploration.queue with
      | nil => simp [Driving.isBusy, frames, queued] at busy
      | cons assignment queue =>
          cases ((Within.steps within).sane sane).framed with
          | drive innermost named between stacked =>
              obtain ⟨rfl, rfl⟩ := List.cons.inj (frames.symm.trans innermost)
              have bound := between.accounted.records_lt queued
              have enough := pow_le_total capacity
              rw [recorded, limit, counted busy] at bound
              omega

/-- The steps of an exploration, from the lock on. -/
theorem exploreLocked_leads (nests : Nests nested depth) {expression : Expression σ} {locked : Bool}
    (found : session.member? name = some { expression, locked }) (sane : Sane ⟨session, name :: calls, .load⟩)
    (room : session.members.length ≤ depth + (calls.length + 1)) :
    Leads (calls.length + 1) ⟨session, name :: calls, .load⟩
      ⟨(exploreLocked step nested name expression session).2, name :: calls,
        .leave (exploreLocked step nested name expression session).1⟩ := by
  rw [exploreLocked]
  cases current : expression.currentSettings session.environment with
  | error fault => exact .single (.unset found current) (Nat.le_refl _) rfl
  | ok settings =>
      have loaded : Step ⟨session, name :: calls, .load⟩ ⟨session.push name settings.maxAtoms, name :: calls, .drive⟩ :=
        .load found current
      have begun : Driven ⟨session, name :: calls, .load⟩ name calls settings.maxAtoms session.frames 0
          { session := session.push name settings.maxAtoms } :=
        .between (.single ⟨loaded, Nat.le_refl _⟩) rfl rfl rfl rfl
      obtain ⟨count, driven, done⟩ := begun.ended step nests sane room
      simp only
      generalize settle Driving.isBusy (runNextPass step nested) (settings.maxAtoms + 1) 0
        { session := session.push name settings.maxAtoms } = ended at driven done ⊢
      cases driven with
      | failed within fixed => exact ⟨within, fixed⟩
      | @between reached frame rest within frames limit counted fixed =>
          have empty : frame.exploration.queue = [] := by simpa [Driving.isBusy, frames] using done
          simp only [frames]
          refine ⟨within.tail ⟨.finish frames empty, Nat.le_refl _⟩, ?_⟩
          rw [pop, countPasses_frames, frames]
          exact fixed

theorem exploreWith_serves (nests : Nests nested depth) (name : String) (sane : Sane ⟨session, calls, .call name⟩)
    (room : session.members.length ≤ depth + (calls.length + 1)) :
    Serves session calls name (exploreWith step nested name session) := by
  rw [exploreWith]
  cases found : session.member? name with
  | none => exact .unknown found
  | some member =>
      simp only
      cases locked : member.locked with
      | true => exact .refused found locked
      | false =>
          have entered : Step ⟨session, calls, .call name⟩ ⟨session.lock name, name :: calls, .load⟩ :=
            .enter found locked
          have length := Steps.members_length (.single entered)
          exact .explored found locked (exploreLocked_leads step nests (member?_lock found) (entered.sane sane)
            (Nat.le_trans (Nat.le_of_eq length) room))

end Rules

/-- An exploration takes the steps of a call, and the bound on the depth of nested calls is not reached. -/
theorem exploreNested_serves (step : σ → Stretch σ) (depth : Nat) (name : String) {session : Session σ}
    {calls : List String} (sane : Sane ⟨session, calls, .call name⟩)
    (room : session.members.length ≤ depth + calls.length) :
    Serves session calls name (exploreNested step depth name session) := by
  induction depth generalizing name session calls with
  | zero =>
      rw [exploreNested]
      cases found : session.member? name with
      | none => exact .unknown found
      | some member =>
          cases locked : member.locked with
          | true => exact .refused found locked
          | false =>
              have more : calls.length < session.members.length :=
                calls_length_lt sane.locked_iff sane.distinct found locked
              omega
  | succ depth ih =>
      rw [exploreNested]
      have deeper : session.members.length ≤ depth + (calls.length + 1) := by omega
      refine exploreWith_serves step (fun name session calls sane room => ?_) name sane deeper
      exact ⟨_, (ih name sane room).leads⟩

end Session

end Extension
