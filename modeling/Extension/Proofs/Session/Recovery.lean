import Extension.Proofs.Session.Simulation

namespace Extension.Session

open Decision

/-! Sessions recover.

Whatever the rules of a session do, at each of its moments the locks tell which explorations are in progress, and
outside of every exploration nothing is locked.  What is run from outside are steps of this kind, one call after the
other.
-/

variable {σ : Type}

/-- What the locks and the counts say at one moment of a session. -/
structure Disciplined (moment : Moment σ) : Prop where
  locked_iff : ∀ name, moment.session.locked? name = some true ↔ name ∈ moment.calls
  unlocked : moment.calls = [] → ∀ name, moment.session.locked? name ≠ some true
  continues : ∃ next, Step moment next
  refused : ∀ name member, moment.control = .call name → moment.session.member? name = some member →
    name ∈ moment.calls → ∀ next, Step moment next ↔
      next = ⟨moment.session, moment.calls, .back (.error (.alreadyCompiling member.expression.name))⟩
  entered : ∀ name member, moment.control = .call name → moment.session.member? name = some member →
    name ∉ moment.calls → ∀ next, Step moment next ↔ next = ⟨moment.session.lock name, name :: moment.calls, .load⟩
  /-- A count changes only when an exploration of its expression ends with a tree, to the number of its leaves. -/
  counts : ∀ next, Step moment next → ∀ name, next.session.passes? name ≠ moment.session.passes? name →
    ∃ tree, moment.calls.head? = some name ∧ next.calls = moment.calls ∧ next.control = .leave (.ok tree) ∧
      next.session.passes? name = some tree.leaves.length
  /-- A call that was let in comes back with a tree and its leaves counted, or with a fault and the count as it was. -/
  returns : ∀ name member, moment.control = .call name → moment.session.member? name = some member →
    name ∉ moment.calls → ∀ last after,
      Within (moment.calls.length + 1) ⟨moment.session.lock name, name :: moment.calls, .load⟩ last →
      Step last after → after.calls = moment.calls → ∃ outcome, after.control = .back outcome ∧
        after.session.passes? name = countAfter (moment.session.passes? name) outcome

section Calls

variable {session : Session σ} {calls : List String} {name : String} {member : Member σ}

theorem Sane.locked_eq (sane : Sane ⟨session, calls, .call name⟩) (found : session.member? name = some member) :
    member.locked = true ↔ name ∈ calls := by
  have held := sane.locked_iff name
  rwa [locked?, found, Option.map_some, Option.some.injEq] at held

/-- What becomes of a call is determined by the lock. -/
theorem Step.of_call {next : Moment σ} (step : Step ⟨session, calls, .call name⟩ next)
    (found : session.member? name = some member) :
    (member.locked = true ∧ next = ⟨session, calls, .back (.error (.alreadyCompiling member.expression.name))⟩) ∨
      (member.locked = false ∧ next = ⟨session.lock name, name :: calls, .load⟩) := by
  cases step with
  | unknown absent =>
      rw [absent] at found
      cases found
  | refuse held locked =>
      obtain rfl := Option.some.inj (held.symm.trans found)
      exact .inl ⟨locked, rfl⟩
  | enter held unlocked =>
      obtain rfl := Option.some.inj (held.symm.trans found)
      exact .inr ⟨unlocked, rfl⟩

end Calls

/-- A session never gets stuck. -/
theorem Sane.continues {moment : Moment σ} (sane : Sane moment) : ∃ next, Step moment next := by
  obtain ⟨session, calls, control⟩ := moment
  cases control with
  | foreign => exact ⟨_, .ask ""⟩
  | call name =>
      cases found : session.member? name with
      | none => exact ⟨_, .unknown found⟩
      | some member =>
          cases locked : member.locked with
          | true => exact ⟨_, .refuse found locked⟩
          | false => exact ⟨_, .enter found locked⟩
  | load =>
      cases sane.framed with
      | @load calls name stacked =>
          have held := (sane.locked_iff name).mpr (List.mem_cons_self ..)
          obtain ⟨member, found, _⟩ := Option.map_eq_some_iff.mp held
          cases current : member.expression.currentSettings session.environment with
          | error fault => exact ⟨_, .unset found current⟩
          | ok settings => exact ⟨_, .load found current⟩
  | drive =>
      cases sane.framed with
      | @drive frame outer calls name innermost named between stacked =>
          cases queued : frame.exploration.queue with
          | nil => exact ⟨_, .finish innermost queued⟩
          | cons assignment queue => exact ⟨_, .begin innermost queued⟩
  | leave outcome =>
      cases sane.framed with
      | leave stacked => exact ⟨_, .leave⟩
  | back outcome => exact ⟨_, .back⟩

theorem Sane.disciplined {moment : Moment σ} (sane : Sane moment) : Disciplined moment := by
  obtain ⟨session, calls, control⟩ := moment
  refine {
    locked_iff := sane.locked_iff
    unlocked := ?_
    continues := sane.continues
    refused := ?_
    entered := ?_
    counts := ?_
    returns := ?_ }
  · rintro rfl name locked
    exact List.not_mem_nil ((sane.locked_iff name).mp locked)
  · rintro name member rfl found inside next
    have locked := (sane.locked_eq found).mpr inside
    constructor
    · intro step
      rcases step.of_call found with ⟨_, same⟩ | ⟨unlocked, _⟩
      · exact same
      · rw [locked] at unlocked
        cases unlocked
    · rintro rfl
      exact .refuse found locked
  · rintro name member rfl found outside next
    have unlocked := Bool.eq_false_iff.mpr (mt (sane.locked_eq found).mp outside)
    constructor
    · intro step
      rcases step.of_call found with ⟨locked, _⟩ | ⟨_, same⟩
      · rw [unlocked] at locked
        cases locked
      · exact same
    · rintro rfl
      exact .enter found unlocked
  · intro next step name changed
    cases step.turn sane with
    | inside _ kept => exact absurd (kept name) changed
    | enters _ _ kept => exact absurd (kept name) changed
    | returns _ _ _ kept => exact absurd (kept name) changed
    | ends ending rest outcome innermost same counted was is =>
        have met := counted name
        split at met
        · next here =>
            cases outcome with
            | error fault => exact absurd met changed
            | ok tree => exact ⟨tree, by rw [innermost, here]; rfl, same, is, met⟩
        · exact absurd met changed
  · rintro name member rfl found outside last after within step back
    have unlocked := Bool.eq_false_iff.mpr (mt (sane.locked_eq found).mp outside)
    have begun : Step ⟨session, calls, .call name⟩ ⟨session.lock name, name :: calls, .load⟩ := .enter found unlocked
    exact counted_after_call (begun.sane sane) within step back

/-- A call from outside. -/
inductive Call where
  | explore (name : String)
  | compile (name : String)
  | analyze (name : String)

def Call.name : Call → String
  | .explore name | .compile name | .analyze name => name

variable (step : σ → Stretch σ)

/-- The session after a call from outside, whether or not it failed. -/
def perform (session : Session σ) : Call → Session σ
  | .explore name => (session.explore step name).2
  | .compile name => (session.compile step name).2
  | .analyze name => (session.analyze step name).2

def performAll (session : Session σ) (calls : List Call) : Session σ :=
  calls.foldl (perform step) session

/-- What is compiled or reported makes no difference to the session. -/
theorem perform_eq (session : Session σ) (call : Call) :
    session.perform step call = (session.explore step call.name).2 := by
  cases call with
  | explore name => rfl
  | compile name => rfl
  | analyze name =>
      rw [perform, analyze, Call.name]
      rcases session.explore step name with ⟨fault | tree, after⟩
      · rfl
      · simp only
        split <;> rfl

/-- What exploring an expression from outside comes to. -/
structure Recovers (before : Session σ) (name : String) (explored : Reached σ Tree) : Prop where
  /-- It takes the steps that have been described. -/
  serves : Serves before [] name explored
  unlocked : ∀ other, explored.2.locked? other ≠ some true
  counted : explored.2.passes? name = countAfter (before.passes? name) explored.1

variable {session : Session σ}

theorem explore_serves (sane : Sane (idle session)) (name : String) :
    Serves session [] name (session.explore step name) := by
  have asked : Step (idle session) ⟨session, [], .call name⟩ := .ask name
  exact exploreNested_serves step session.members.length name (asked.sane sane) (Nat.le_refl _)

theorem Serves.steps {name : String} {explored : Reached σ Tree} (serves : Serves session [] name explored) :
    Steps (idle session) (idle explored.2) :=
  .trans (.single (.ask name)) ((Within.steps serves.leads.within).tail .back)

theorem Serves.counted {calls : List String} {name : String} {explored : Reached σ Tree}
    (sane : Sane ⟨session, calls, .call name⟩) (serves : Serves session calls name explored) :
    explored.2.passes? name = countAfter (session.passes? name) explored.1 := by
  cases serves with
  | unknown absent => rfl
  | refused found locked => rfl
  | explored found unlocked leads =>
      have entered : Step ⟨session, calls, .call name⟩ ⟨session.lock name, name :: calls, .load⟩ :=
        .enter found unlocked
      obtain ⟨outcome, back, counted⟩ := counted_after_call (entered.sane sane) leads.within .leave rfl
      cases back
      exact counted

theorem explore_recovers (sane : Sane (idle session)) (name : String) :
    Recovers session name (session.explore step name) := by
  have serves := explore_serves step sane name
  have asked : Step (idle session) ⟨session, [], .call name⟩ := .ask name
  exact ⟨serves, (serves.steps.sane sane).disciplined.unlocked rfl, serves.counted (asked.sane sane)⟩

theorem performAll_steps (sane : Sane (idle session)) (calls : List Call) :
    Steps (idle session) (idle (session.performAll step calls)) := by
  induction calls generalizing session with
  | nil => exact .refl
  | cons call calls ih =>
      have first := (explore_serves step sane call.name).steps
      rw [← perform_eq] at first
      exact first.trans (ih (first.sane sane))

/-- Locks and counts are right at every moment of a session, whatever its rules do.  Every call from outside takes
steps of this kind, and leaves nothing locked. -/
theorem sessions_recover (step : σ → Stretch σ) (environment : Environment) (expressions : Entries (Expression σ)) :
    (∀ moment, Steps (idle (opened environment expressions)) moment → Disciplined moment) ∧
    ∀ (earlier : List Call) (call : Call),
      Steps (idle (opened environment expressions)) (idle ((opened environment expressions).performAll step earlier)) ∧
      ((opened environment expressions).performAll step (earlier ++ [call]) =
        (((opened environment expressions).performAll step earlier).explore step call.name).2) ∧
      Recovers ((opened environment expressions).performAll step earlier) call.name
        (((opened environment expressions).performAll step earlier).explore step call.name) := by
  have sane := sane_opened environment expressions
  refine ⟨fun moment steps => (steps.sane sane).disciplined, fun earlier call => ?_⟩
  have steps := performAll_steps step sane earlier
  refine ⟨steps, ?_, explore_recovers step (steps.sane sane) call.name⟩
  rw [← perform_eq, performAll, List.foldl_append]
  rfl

def twoAtoms : Settings :=
  { maxAtoms := 2, positive := Nat.succ_pos 1 }

/-- Two expressions.  Each compiles the other, the first one only where a key is not set. -/
def circular : Entries (Expression Script) :=
  [("a", .ofRule "a" (.any [.test (.ok (.text "k")) (.ok .truthy), .compile "b"]) (some twoAtoms)),
    ("b", .ofRule "b" (.compile "a") (some twoAtoms))]

/-- The circle is refused two calls further in, and both expressions are free again. -/
theorem circle_recovers :
    ((opened [] circular).explore Script.stretch "a").1 = .error (.alreadyCompiling "a") ∧
    (∀ name, ((opened [] circular).explore Script.stretch "a").2.locked? name ≠ some true) ∧
    ((opened [] circular).explore Script.stretch "a").2.passes? "a" = some 0 := by
  have refused : ((opened [] circular).explore Script.stretch "a").1 = .error (.alreadyCompiling "a") := by rfl
  have recovers := ((sessions_recover Script.stretch [] circular).2 [] (.explore "a")).2.2
  have counted := recovers.counted
  simp only [Call.name, performAll, List.foldl_nil, refused] at counted
  exact ⟨refused, recovers.unlocked, counted⟩

end Extension.Session
