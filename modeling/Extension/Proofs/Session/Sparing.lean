import Extension.Proofs.Session.Simulation

namespace Extension

open Decision

/-! What explorations leave alone.

Between two moments of a session all that is lost of an expression are its counts, as long as the same expressions are
locked.  What is begun then is begun as it would have been before.
-/

/-- What exploring other expressions, or this one, leaves as it is. -/
def Expression.fixed {σ : Type} (expression : Expression σ) : Expression σ :=
  { expression with calls := 0, passes := 0 }

def Member.fixed {σ : Type} (member : Member σ) : Member σ :=
  { member with expression := member.expression.fixed }

namespace Session

variable {σ : Type}

/-- Whatever has happened between, the same expressions are there, and the same of them are locked. -/
structure Spares (before after : Session σ) : Prop where
  environment : after.environment = before.environment
  begun : before.begun ≤ after.begun
  members : ∀ name, (after.member? name).map Member.fixed = (before.member? name).map Member.fixed
  count : after.members.length = before.members.length

namespace Spares

variable {before middle after : Session σ}

theorem refl (session : Session σ) : Spares session session :=
  ⟨rfl, Nat.le_refl _, fun _ => rfl, rfl⟩

theorem trans (first : Spares before middle) (second : Spares middle after) : Spares before after where
  environment := second.environment.trans first.environment
  begun := Nat.le_trans first.begun second.begun
  members name := (second.members name).trans (first.members name)
  count := second.count.trans first.count

theorem of_members (environment : after.environment = before.environment) (members : after.members = before.members)
    (begun : before.begun ≤ after.begun) : Spares before after :=
  ⟨environment, begun, fun name => by rw [member?_of_members members], by rw [members]⟩

theorem updateMember (session : Session σ) (name : String) {change : Member σ → Member σ}
    (keeps : ∀ member, (change member).fixed = member.fixed) : Spares session (session.updateMember name change) where
  environment := updateMember_environment session name change
  begun := Nat.le_of_eq (updateMember_begun session name change).symm
  members := map_member?_updateMember session name change Member.fixed keeps
  count := updateMember_length session name change

theorem openPass (session : Session σ) (assignment : Nat) : Spares session (session.openPass assignment) := by
  cases frames : session.frames with
  | nil =>
      simp only [Session.openPass, frames]
      exact .refl session
  | cons frame outer =>
      have opened : Spares session { session with frames := frame.opened assignment :: outer } :=
        .of_members rfl rfl (Nat.le_refl _)
      simp only [Session.openPass, frames]
      refine opened.trans (updateMember _ _ ?_)
      exact fun _ => rfl

theorem member (spares : Spares before after) {name : String} {member : Member σ}
    (found : before.member? name = some member) :
    ∃ later, after.member? name = some later ∧ later.fixed = member.fixed := by
  have same := spares.members name
  rw [found] at same
  exact Option.map_eq_some_iff.mp same

theorem locked? (spares : Spares before after) (name : String) : after.locked? name = before.locked? name := by
  have same := congrArg (Option.map Member.locked) (spares.members name)
  rw [Option.map_map, Option.map_map] at same
  exact same

end Spares

/-- Two ways to go on agree.  They have this outcome, and leave everything else alone. -/
structure Gives {α : Type} (before : Session σ) (outcome : Except Fault α) (reached other : Reached σ α) : Prop where
  same : other = reached
  outcome : reached.1 = outcome
  spares : Spares before reached.2
  frames : reached.2.frames = before.frames

namespace Gives

variable {α : Type} {before middle after : Session σ} {outcome : Except Fault α} {reached other : Reached σ α}

theorem of_spares (spares : Spares before after) (frames : after.frames = before.frames) (outcome : Except Fault α) :
    Gives before outcome (outcome, after) (outcome, after) :=
  ⟨rfl, rfl, spares, frames⟩

theorem eq (gives : Gives before outcome reached other) :
    ∃ after, reached = (outcome, after) ∧ other = (outcome, after) ∧ Spares before after ∧
      after.frames = before.frames := by
  obtain ⟨rfl, rfl, spares, frames⟩ := gives
  exact ⟨_, rfl, rfl, spares, frames⟩

theorem since (gives : Gives middle outcome reached other) (spares : Spares before middle)
    (frames : middle.frames = before.frames) : Gives before outcome reached other :=
  ⟨gives.same, gives.outcome, spares.trans gives.spares, gives.frames.trans frames⟩

end Gives

/-- The named expression, but for what is counted. -/
def expression? (session : Session σ) (name : String) : Option (Expression σ) :=
  (session.member? name).map fun member => member.expression.fixed

theorem expression?_of_members {first second : Session σ} (same : first.members = second.members) (name : String) :
    first.expression? name = second.expression? name := by
  rw [expression?, expression?, member?_of_members same]

theorem expression?_updateMember (session : Session σ) (name : String) {change : Member σ → Member σ}
    (keeps : ∀ member, (change member).expression.fixed = member.expression.fixed) (other : String) :
    (session.updateMember name change).expression? other = session.expression? other :=
  map_member?_updateMember session name change (fun member => member.expression.fixed) keeps other

theorem Spares.expression? {before after : Session σ} (spares : Spares before after) (name : String) :
    after.expression? name = before.expression? name := by
  have same := congrArg (Option.map Member.expression) (spares.members name)
  rw [Option.map_map, Option.map_map] at same
  exact same

/-- No step makes another expression out of one. -/
theorem Step.expression? {before after : Moment σ} (step : Step before after) (name : String) :
    after.session.expression? name = before.session.expression? name := by
  cases step with
  | read handle test => exact expression?_of_members (readThrough_members _ handle test).1 name
  | settle closed => exact expression?_of_members (closePass_members closed).1 name
  | enter found unlocked =>
      rw [lock, expression?_updateMember]
      exact fun _ => rfl
  | leave =>
      rw [unlock, expression?_updateMember]
      exact fun _ => rfl
  | finish frames empty =>
      change (countPasses _ _ _).expression? name = _
      rw [countPasses, expression?_updateMember]
      exact fun _ => rfl
  | begin frames queued => exact (Spares.openPass _ _).expression? name
  | _ => rfl

theorem Steps.expression? {before after : Moment σ} (steps : Steps before after) (name : String) :
    after.session.expression? name = before.session.expression? name := by
  induction steps with
  | refl => rfl
  | tail _ step ih => rw [step.expression?, ih]

theorem opened_expression? (environment : Environment) (expressions : Entries (Expression σ)) (name : String) :
    (opened environment expressions).expression? name = (expressions.lookup name).map Expression.fixed := by
  rw [expression?, member?, opened]
  induction expressions with
  | nil => rfl
  | cons entry rest ih =>
      rw [List.map_cons, List.lookup_cons, List.lookup_cons]
      cases name == entry.1 with
      | true => rfl
      | false => exact ih

/-- Explorations can be begun, of these expressions and inside those in progress. -/
structure Ready (expressions : Entries (Expression σ)) (session : Session σ) (calls : List String) : Prop where
  locked_iff : ∀ name, session.locked? name = some true ↔ name ∈ calls
  distinct : calls.Nodup
  fresh : ∀ frame ∈ session.frames, frame.serial < session.begun
  known : ∀ name, session.expression? name = (expressions.lookup name).map Expression.fixed

namespace Ready

variable {expressions : Entries (Expression σ)} {session inner : Session σ} {calls : List String} {name : String}

theorem of_steps {environment : Environment} {control : Control}
    (steps : Steps (idle (opened environment expressions)) ⟨session, calls, control⟩) :
    Ready expressions session calls := by
  have sane := steps.sane (sane_opened environment expressions)
  refine ⟨sane.locked_iff, sane.distinct, fun frame member => ?_, fun name => ?_⟩
  · exact (List.pairwise_cons.mp sane.serials).1 frame.serial (List.mem_map_of_mem member)
  · exact (steps.expression? name).trans (opened_expression? environment expressions name)

theorem found (ready : Ready expressions session calls) {expression : Expression σ}
    (listed : expressions.lookup name = some expression) (apart : name ∉ calls) :
    ∃ member, session.member? name = some member ∧ member.locked = false ∧
      member.expression.fixed = expression.fixed := by
  have known := ready.known name
  rw [listed] at known
  obtain ⟨member, found, same⟩ := Option.map_eq_some_iff.mp known
  refine ⟨member, found, Bool.eq_false_iff.mpr fun locked => ?_, same⟩
  exact apart ((ready.locked_iff name).mp (by rw [locked?, found, Option.map_some, locked]))

theorem inside (ready : Ready expressions session calls) {member : Member σ} {frame : Frame}
    (found : session.member? name = some member) (unlocked : member.locked = false)
    (spares : Spares { session.lock name with begun := session.begun + 1 } inner)
    (frames : inner.frames = frame :: session.frames) (numbered : frame.serial = session.begun) :
    Ready expressions inner (name :: calls) := by
  have apart := not_mem_of_unlocked ready.locked_iff found unlocked
  refine ⟨fun other => ?_, List.nodup_cons.mpr ⟨apart, ready.distinct⟩, fun held member => ?_, fun other => ?_⟩
  · rw [spares.locked?]
    change (session.lock name).locked? other = some true ↔ _
    rw [locked?_lock, List.mem_cons, ← ready.locked_iff]
    by_cases same : other = name
    · simp [same, locked?, found]
    · simp [same]
  · have later : session.begun + 1 ≤ inner.begun := spares.begun
    rw [frames] at member
    rcases List.mem_cons.mp member with rfl | member
    · omega
    · have earlier := ready.fresh held member
      omega
  · have kept : (session.lock name).expression? other = session.expression? other := by
      rw [lock, expression?_updateMember]
      exact fun _ => rfl
    rw [spares.expression?, ← ready.known]
    exact kept

end Ready

end Session

end Extension
