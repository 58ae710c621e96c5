import Extension.Proofs.Session.Execution
import Extension.Proofs.Session.Tracking

namespace Extension.Session

open Decision

/-! No execution goes on for ever.

Between two tests code comes nearer to its end with everything that it does.  A pass makes no more tests than its
capacity allows, an exploration runs no more passes than there are combinations of answers, and no more explorations
are in progress than there are expressions.  So every call ends if all does that it may come back to.
-/

variable {σ : Type}

abbrev Ends (step : σ → Stretch σ) (begins : Member σ → σ → Prop) (execution : Execution σ) : Prop :=
  Acc (fun after before => Proceeds step begins before after) execution

variable {step : σ → Stretch σ} {begins : Member σ → σ → Prop}

theorem Ends.not_endless {execution : Execution σ} (ends : Ends step begins execution) :
    ¬ ∃ run : Nat → Execution σ, run 0 = execution ∧ ∀ count, Proceeds step begins (run count) (run (count + 1)) := by
  induction ends with
  | intro execution _ ih =>
      rintro ⟨run, first, proceeds⟩
      -- without its first step, the run is an endless one from where this step leads
      refine ih (run 1) (first ▸ proceeds 0) ⟨fun count => run (count + 1), rfl, fun count => ?_⟩
      exact proceeds (count + 1)

/-- A call ends if all does that it may come back to, as long as no more than so many expressions are unlocked. -/
def CallsEnd (step : σ → Stretch σ) (begins : Member σ → σ → Prop) (depth : Nat) : Prop :=
  ∀ (session : Session σ) (calls : List String) (waiting : List (String → Stretch σ)) (name : String),
    Sane ⟨session, calls, .call name⟩ → session.members.length ≤ depth + calls.length →
    (∀ after outcome, Leads calls.length ⟨session, calls, .call name⟩ ⟨after, calls, .back outcome⟩ →
      Ends step begins ⟨after, calls, waiting, .back outcome⟩) →
    Ends step begins ⟨session, calls, waiting, .call name⟩

variable {depth : Nat} {session : Session σ} {calls : List String} {waiting : List (String → Stretch σ)} {name : String}

section Code

variable {first : Session σ} {own : Handle} {capacity made : Nat}

/-- Code ends if it does behind its next test, behind a fault, and where its pass has ended. -/
theorem stretch_ends (callsEnd : CallsEnd step begins depth)
    (fails : ∀ after fault, Ran (name :: calls) first after →
      Ends step begins ⟨after.pop, name :: calls, waiting, .leave (.error fault)⟩)
    (settles : ∀ after ended value, Ran (name :: calls) first after → after.closePass value = .ok ended →
      Ends step begins ⟨ended, name :: calls, waiting, .drive⟩)
    (tests : ∀ after state, Ran (name :: calls) first after → Inside depth name calls after own capacity (made + 1) →
      made + 1 ≤ capacity → Ends step begins ⟨after, name :: calls, waiting, .code (step state)⟩)
    (stretch : Stretch σ) (ran : Ran (name :: calls) first session)
    (inside : Inside depth name calls session own capacity made) :
    Ends step begins ⟨session, name :: calls, waiting, .code stretch⟩ := by
  have failing {session after : Session σ} {frame : Frame} {stretch : Stretch σ} {fault : Fault}
      (ran : Ran (name :: calls) first session) (inside : Inside depth name calls session own capacity made)
      (failed : Fails frame.handle session stretch after fault) :
      Ends step begins ⟨after.pop, name :: calls, waiting, .leave (.error fault)⟩ :=
    fails after fault (ran.trans (failed.leads inside.sane))
  induction stretch generalizing session with
  | read test next =>
      refine .intro _ fun _ proceeds => ?_
      cases proceeds with
      | go _ goes => cases goes
      | fail _ failed => exact failing ran inside failed
      | test innermost read =>
          rw [inside.working.named innermost] at read
          obtain ⟨led, further, fits⟩ := inside.test read
          exact tests _ _ (ran.trans led) further fits
  | finish value =>
      refine .intro _ fun _ proceeds => ?_
      cases proceeds with
      | go _ goes => cases goes
      | fail _ failed => exact failing ran inside failed
      | settle closed => exact settles _ _ _ ran closed
  | raise fault =>
      refine .intro _ fun _ proceeds => ?_
      cases proceeds with
      | go _ goes => cases goes
      | fail _ failed => exact failing ran inside failed
  | readRemembered handle test next ih =>
      refine .intro _ fun _ proceeds => ?_
      cases proceeds with
      | fail _ failed => exact failing ran inside failed
      | go _ goes =>
          have led := goes.leads inside.sane
          cases goes with
          | read read => exact ih _ (ran.trans led) (inside.ran led)
  | remember accessor slot next ih =>
      refine .intro _ fun _ proceeds => ?_
      cases proceeds with
      | fail _ failed => exact failing ran inside failed
      | go _ goes =>
          have led := goes.leads inside.sane
          cases goes with
          | remember => exact ih (ran.trans led) (inside.ran led)
  | «recall» slot next ih =>
      refine .intro _ fun _ proceeds => ?_
      cases proceeds with
      | fail _ failed => exact failing ran inside failed
      | go _ goes =>
          cases goes with
          | «recall» found => exact ih _ ran inside
  | change environment next ih =>
      refine .intro _ fun _ proceeds => ?_
      cases proceeds with
      | fail _ failed => exact failing ran inside failed
      | go _ goes =>
          have led := goes.leads inside.sane
          cases goes with
          | change => exact ih (ran.trans led) (inside.ran led)
  | compile callee next ih =>
      refine .intro _ fun _ proceeds => ?_
      cases proceeds with
      | go _ goes => cases goes
      | fail _ failed => exact failing ran inside failed
      | compile =>
          have called : Leads (name :: calls).length ⟨session, name :: calls, .foreign⟩
              ⟨session, name :: calls, .call callee⟩ := .single (.ask callee) (Nat.le_refl _) rfl
          refine callsEnd session _ _ callee (called.sane inside.sane) inside.room fun after outcome served => ?_
          have compiled := Ran.compiled served
          refine .intro _ fun _ proceeds => ?_
          cases proceeds with
          | resume => exact ih _ (ran.trans compiled) (inside.ran compiled)
          | unwind => exact fails after _ (ran.trans compiled)

/-- A call of a rule ends if it does behind a fault and where its pass has ended. -/
theorem code_ends (callsEnd : CallsEnd step begins depth)
    (fails : ∀ after fault, Ran (name :: calls) first after →
      Ends step begins ⟨after.pop, name :: calls, waiting, .leave (.error fault)⟩)
    (settles : ∀ after ended value, Ran (name :: calls) first after → after.closePass value = .ok ended →
      Ends step begins ⟨ended, name :: calls, waiting, .drive⟩)
    {left : Nat} (enough : capacity ≤ made + left) (stretch : Stretch σ) (ran : Ran (name :: calls) first session)
    (inside : Inside depth name calls session own capacity made) :
    Ends step begins ⟨session, name :: calls, waiting, .code stretch⟩ := by
  -- on the number of tests that there is still room for
  induction left generalizing made session stretch with
  | zero =>
      refine stretch_ends callsEnd fails settles (fun _ _ _ _ fits => ?_) stretch ran inside
      omega
  | succ left ih =>
      refine stretch_ends callsEnd fails settles (fun after state ran inside _ => ?_) stretch ran inside
      exact ih (by omega) (step state) ran inside

end Code

section Driving

variable {first : Moment σ} {capacity count : Nat} {outer : List Frame}

/-- An exploration that is being driven ends if it does when it is left, and behind its next pass. -/
theorem pass_ends (callsEnd : CallsEnd step begins depth) (sane : Sane first)
    (room : first.session.members.length ≤ depth + (calls.length + 1))
    (leaves : ∀ after outcome, Within (calls.length + 1) first ⟨after, name :: calls, .leave outcome⟩ →
      after.frames.map Frame.fixed = outer.map Frame.fixed →
      Ends step begins ⟨after, name :: calls, waiting, .leave outcome⟩)
    (passes : ∀ ended, count < 2 ^ capacity →
      Driven first name calls capacity outer (count + 1) { session := ended } →
      Ends step begins ⟨ended, name :: calls, waiting, .drive⟩)
    (driven : Driven first name calls capacity outer count { session }) :
    Ends step begins ⟨session, name :: calls, waiting, .drive⟩ := by
  cases driven with
  | @between _ frame rest within frames limit counted fixed =>
      refine .intro _ fun _ proceeds => ?_
      cases proceeds with
      | finish innermost empty =>
          obtain ⟨rfl, rfl⟩ := List.cons.inj (frames.symm.trans innermost)
          refine leaves _ _ (within.tail ⟨.finish frames empty, Nat.le_refl _⟩) ?_
          rw [pop, countPasses_frames, frames]
          exact fixed
      | @begin _ _ _ _ _ assignment queue member state innermost queued found starts =>
          obtain ⟨rfl, rfl⟩ := List.cons.inj (frames.symm.trans innermost)
          have bound : frame.exploration.records.length < 2 ^ frame.capacity := by
            cases ((Within.steps within).sane sane).framed with
            | drive first _ between _ =>
                obtain ⟨rfl, _⟩ := List.cons.inj (frames.symm.trans first)
                exact between.accounted.records_lt queued
          have opened := within.tail ⟨.begin frames queued, Nat.le_refl _⟩
          have room' := Nat.le_trans (Nat.le_of_eq (Within.steps opened).members_length) room
          have inside : Inside depth name calls (session.openPass assignment) frame.handle frame.capacity 0 :=
            .opened frames ((Within.steps opened).sane sane) room'
          have kept {after : Session σ} (ran : Ran (name :: calls) (session.openPass assignment) after) :
              after.frames.map Frame.fixed = frame.fixed :: outer.map Frame.fixed := by
            have same := ran.fixed
            rw [openPass_frames frames, List.map_cons, fixed] at same
            exact same
          subst limit counted
          have enough : frame.capacity ≤ 0 + frame.capacity := Nat.le_of_eq (Nat.zero_add _).symm
          refine code_ends callsEnd ?_ ?_ enough _ (.refl ..) inside
          · intro after fault ran
            have broken : Driven first name calls frame.capacity outer 0 { session := after, fault := some fault } :=
              .broken (opened.trans ran.within) (kept ran) (.raise fault)
            cases broken with
            | failed within fixed => exact leaves _ _ within fixed
          · intro after ended value ran closed
            exact passes ended bound (.settled sane (opened.trans ran.within) (kept ran) closed)

theorem drive_ends (callsEnd : CallsEnd step begins depth) (sane : Sane first)
    (room : first.session.members.length ≤ depth + (calls.length + 1))
    (leaves : ∀ after outcome, Within (calls.length + 1) first ⟨after, name :: calls, .leave outcome⟩ →
      after.frames.map Frame.fixed = outer.map Frame.fixed →
      Ends step begins ⟨after, name :: calls, waiting, .leave outcome⟩)
    {left : Nat} (enough : 2 ^ capacity ≤ count + left)
    (driven : Driven first name calls capacity outer count { session }) :
    Ends step begins ⟨session, name :: calls, waiting, .drive⟩ := by
  -- on the number of passes that there is still room for
  induction left generalizing count session with
  | zero =>
      refine pass_ends callsEnd sane room leaves (fun _ fits => ?_) driven
      omega
  | succ left ih =>
      refine pass_ends callsEnd sane room leaves (fun ended _ further => ?_) driven
      exact ih (by omega) further

end Driving

theorem entered_ends (callsEnd : CallsEnd step begins depth) {member : Member σ}
    (found : session.member? name = some member) (unlocked : member.locked = false)
    (sane : Sane ⟨session, calls, .call name⟩) (room : session.members.length ≤ depth + (calls.length + 1))
    (returns : ∀ after outcome, Leads calls.length ⟨session, calls, .call name⟩ ⟨after, calls, .back outcome⟩ →
      Ends step begins ⟨after, calls, waiting, .back outcome⟩) :
    Ends step begins ⟨session.lock name, name :: calls, waiting, .load⟩ := by
  have entered : Leads calls.length ⟨session, calls, .call name⟩ ⟨session.lock name, name :: calls, .load⟩ :=
    .single (.enter found unlocked) (Nat.le_succ _) (by rw [lock_frames])
  have inside := entered.sane sane
  have leaves (after : Session σ) (outcome : Except Fault Tree)
      (within : Within (calls.length + 1) ⟨session.lock name, name :: calls, .load⟩
        ⟨after, name :: calls, .leave outcome⟩)
      (fixed : after.frames.map Frame.fixed = session.frames.map Frame.fixed) :
      Ends step begins ⟨after, name :: calls, waiting, .leave outcome⟩ := by
    refine .intro _ fun _ proceeds => ?_
    cases proceeds with
    | leave =>
        have served : Serves session calls name (outcome, after.unlock name) :=
          .explored found unlocked ⟨within, by rw [lock_frames]; exact fixed⟩
        exact returns _ _ served.leads
  refine .intro _ fun _ proceeds => ?_
  cases proceeds with
  | unset known wrong => exact leaves _ _ (.single ⟨.unset known wrong, Nat.le_refl _⟩) (by rw [lock_frames])
  | @load _ _ _ _ _ settings known current =>
      have length := Steps.members_length (Within.steps entered.within)
      have begun : Driven ⟨session.lock name, name :: calls, .load⟩ name calls settings.maxAtoms session.frames 0
          { session := (session.lock name).push name settings.maxAtoms } :=
        .between (.single ⟨.load known current, Nat.le_refl _⟩) rfl rfl rfl (by rw [lock_frames])
      have enough : 2 ^ settings.maxAtoms ≤ 0 + 2 ^ settings.maxAtoms := Nat.le_of_eq (Nat.zero_add _).symm
      exact drive_ends callsEnd inside (Nat.le_trans (Nat.le_of_eq length) room) leaves enough begun

variable (step begins) in
theorem calls_end (depth : Nat) : CallsEnd step begins depth := by
  -- on the number of expressions that may still be unlocked
  induction depth with
  | zero =>
      intro session calls waiting name sane room returns
      refine .intro _ fun _ proceeds => ?_
      cases proceeds with
      | unknown absent => exact returns _ _ (.single (.unknown absent) (Nat.le_refl _) rfl)
      | refuse found locked => exact returns _ _ (.single (.refuse found locked) (Nat.le_refl _) rfl)
      | enter found unlocked =>
          have more : calls.length < session.members.length :=
            calls_length_lt sane.locked_iff sane.distinct found unlocked
          omega
  | succ depth ih =>
      intro session calls waiting name sane room returns
      refine .intro _ fun _ proceeds => ?_
      cases proceeds with
      | unknown absent => exact returns _ _ (.single (.unknown absent) (Nat.le_refl _) rfl)
      | refuse found locked => exact returns _ _ (.single (.refuse found locked) (Nat.le_refl _) rfl)
      | enter found unlocked => exact entered_ends ih found unlocked sane (by omega) returns

theorem asked_ends (sane : Sane (idle session)) (name : String) : Ends step begins (asked session name) := by
  have called : Step (idle session) ⟨session, [], .call name⟩ := .ask name
  refine calls_end step begins _ session [] [] name (called.sane sane) (Nat.le_refl _) fun after outcome _ => ?_
  refine .intro _ fun _ proceeds => ?_
  cases proceeds

end Extension.Session
