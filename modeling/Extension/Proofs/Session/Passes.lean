import Extension.Proofs.Session.Locks

namespace Extension.Session

open Decision

/-! Which passes an expression counts.

The count of an expression changes only when an exploration of this expression ends and has a tree, and it is then
the number of leaves of this tree.  So a call for an exploration leaves the count as it was, or ends with a tree.
-/

variable {σ : Type} {before after : Moment σ}

theorem Sane.passes?_isSome {moment : Moment σ} (sane : Sane moment) {name : String} (inside : name ∈ moment.calls) :
    ∃ passes, moment.session.passes? name = some passes := by
  have locked := (sane.locked_iff name).mpr inside
  rw [locked?, Option.map_eq_some_iff] at locked
  obtain ⟨member, found, _⟩ := locked
  exact ⟨_, by rw [passes?, found]; rfl⟩

/-- What an expression counts when its exploration has ended. -/
def countAfter (passes : Option Nat) : Except Fault Tree → Option Nat
  | .ok tree => some tree.leaves.length
  | .error _ => passes

/-- The outcome of the exploration that is about to be unlocked. -/
def Control.ending? : Control → Option (Except Fault Tree)
  | .leave outcome => some outcome
  | _ => none

/-- What a step does to the calls and to the counts. -/
inductive Turn (before after : Moment σ) : Prop
  | inside (same : after.calls = before.calls) (kept : ∀ name, after.session.passes? name = before.session.passes? name)
      (was : before.control.ending? = none) (is : after.control.ending? = none)
  | enters (name : String) (deeper : after.calls = name :: before.calls)
      (kept : ∀ name, after.session.passes? name = before.session.passes? name)
      (was : before.control = .call name) (is : after.control = .load)
  | ends (name : String) (rest : List String) (outcome : Except Fault Tree) (innermost : before.calls = name :: rest)
      (same : after.calls = before.calls)
      (counted : ∀ other, after.session.passes? other =
        if other = name then countAfter (before.session.passes? other) outcome else before.session.passes? other)
      (was : before.control.ending? = none) (is : after.control = .leave outcome)
  | returns (name : String) (outcome : Except Fault Tree) (outside : before.calls = name :: after.calls)
      (kept : ∀ name, after.session.passes? name = before.session.passes? name)
      (was : before.control = .leave outcome) (is : after.control = .back outcome)

theorem Step.turn (step : Step before after) (sane : Sane before) : Turn before after := by
  have failed {session ended : Session σ} {name : String} {calls : List String} {control : Control} {fault : Fault}
      (kept : ∀ other, ended.passes? other = session.passes? other) (was : control.ending? = none) :
      Turn ⟨session, name :: calls, control⟩ ⟨ended, name :: calls, .leave (.error fault)⟩ :=
    .ends name calls _ rfl rfl (fun other => by rw [kept other]; exact (ite_self _).symm) was rfl
  cases step with
  | aside | ask | unknown | refuse | load | back => exact .inside rfl (fun _ => rfl) rfl rfl
  | read handle test =>
      exact .inside rfl (passes?_of_members (readThrough_members _ handle test).1) rfl rfl
  | settle closed => exact .inside rfl (passes?_of_members (closePass_members closed).1) rfl rfl
  | begin frames queued => exact .inside rfl (passes?_openPass _ · _) rfl rfl
  | enter found unlocked => exact .enters _ rfl (passes?_lock _ _) rfl rfl
  | unset | reject | raise => exact failed (fun _ => rfl) rfl
  | leave => exact .returns _ _ rfl (passes?_unlock _ _) rfl rfl
  | @finish session calls name frame outer frames empty =>
      cases sane.framed with
      | drive innermost named between stacked =>
          obtain ⟨rfl, rfl⟩ := List.cons.inj (frames.symm.trans innermost)
          obtain ⟨passes, known⟩ := sane.passes?_isSome (List.mem_cons_self ..)
          have leaves := (between.accounted.results_perm empty).length_eq
          rw [List.length_map] at leaves
          refine .ends name calls _ rfl rfl (fun other => ?_) rfl rfl
          change (session.countPasses name frame.exploration.records.length).passes? other = _
          rw [passes?_countPasses, show session.passes? name = _ from known, leaves]
          rfl

/-- The steps after which at least so many explorations are in progress. -/
abbrev Within (level : Nat) : Moment σ → Moment σ → Prop :=
  Relation.ReflTransGen fun before after => Step before after ∧ level ≤ after.calls.length

theorem Within.steps {level : Nat} (within : Within level before after) : Steps before after :=
  Relation.ReflTransGen.mono (fun _ _ step => step.1) _ _ within

theorem Within.mono {level fewer : Nat} (within : Within level before after) (le : fewer ≤ level) :
    Within fewer before after :=
  Relation.ReflTransGen.mono (fun _ _ step => ⟨step.1, Nat.le_trans le step.2⟩) _ _ within

/-- The named expression is being explored for a call, and had counted so many passes when it was called. -/
inductive Pending (name : String) (calls : List String) (passes : Option Nat) (moment : Moment σ) : Prop
  | within (above : List String) (inside : moment.calls = above ++ name :: calls)
      (same : moment.session.passes? name = passes) (stays : above = [] → moment.control.ending? = none)
  | leaving (outcome : Except Fault Tree) (inside : moment.calls = name :: calls)
      (leaves : moment.control = .leave outcome) (counted : moment.session.passes? name = countAfter passes outcome)

variable {name : String} {calls : List String} {passes : Option Nat}

theorem Pending.longer {moment : Moment σ} (pending : Pending name calls passes moment) : moment.calls ≠ calls := by
  intro same
  have length := congrArg List.length same
  cases pending with
  | within above inside =>
      rw [inside, List.length_append, List.length_cons] at length
      omega
  | leaving outcome inside =>
      rw [inside, List.length_cons] at length
      omega

/-- A pending call goes on, or it comes back. -/
theorem Pending.step (pending : Pending name calls passes before) (sane : Sane before) (step : Step before after) :
    Pending name calls passes after ∨
    ∃ outcome, after.calls = calls ∧ after.control = .back outcome ∧
      after.session.passes? name = countAfter passes outcome := by
  have turn := step.turn sane
  cases pending with
  | leaving outcome inside leaves counted =>
      cases turn with
      | inside _ _ was =>
          rw [leaves] at was
          cases was
      | enters _ _ _ was =>
          rw [leaves] at was
          cases was
      | ends _ _ _ _ _ _ was =>
          rw [leaves] at was
          cases was
      | returns left other outside kept was is =>
          rw [leaves] at was
          cases was
          obtain ⟨_, rfl⟩ := List.cons.inj (inside.symm.trans outside)
          exact .inr ⟨outcome, rfl, is, (kept name).trans counted⟩
  | within above inside same stays =>
      cases turn with
      | inside calls kept was is =>
          exact .inl (.within above (calls.trans inside) ((kept name).trans same) fun _ => is)
      | enters entered deeper kept was is =>
          refine .inl (.within (entered :: above) ?_ ((kept name).trans same) fun none => nomatch none)
          rw [deeper, inside]
          rfl
      | returns left outcome outside kept was is =>
          cases above with
          | nil =>
              have stays := stays rfl
              rw [was] at stays
              cases stays
          | cons first above =>
              obtain ⟨_, rest⟩ := List.cons.inj (inside.symm.trans outside)
              refine .inl (.within above rest.symm ((kept name).trans same) fun _ => ?_)
              rw [is]
              rfl
      | ends ending rest outcome innermost calls counted was is =>
          have met := counted name
          cases above with
          | nil =>
              obtain ⟨rfl, rfl⟩ := List.cons.inj (inside.symm.trans innermost)
              rw [if_pos rfl, same] at met
              exact .inl (.leaving outcome (calls.trans inside) is met)
          | cons first above =>
              have distinct := sane.distinct
              rw [inside] at distinct
              obtain ⟨rfl, _⟩ := List.cons.inj (inside.symm.trans innermost)
              have differ : name ≠ first := by
                rintro rfl
                exact (List.nodup_cons.mp distinct).1 (by simp)
              rw [if_neg differ, same] at met
              exact .inl (.within (first :: above) (calls.trans inside) met fun none => nomatch none)

/-- From its beginning until it comes back, a call leaves the count of its expression alone. -/
theorem Pending.along {first last : Moment σ} (pending : Pending name calls passes first) (sane : Sane first)
    (within : Within (calls.length + 1) first last) : Pending name calls passes last := by
  induction within with
  | refl => exact pending
  | @tail middle last before step ih =>
      rcases ih.step ((Within.steps before).sane sane) step.1 with pending | ⟨outcome, back, _⟩
      · exact pending
      · have deeper := step.2
        rw [back] at deeper
        exact absurd deeper (Nat.not_succ_le_self _)

/-- A call that has been let in counts the leaves of its tree when it comes back, or leaves the count as it was. -/
theorem counted_after_call {session : Session σ} {last after : Moment σ}
    (sane : Sane ⟨session.lock name, name :: calls, .load⟩)
    (within : Within (calls.length + 1) ⟨session.lock name, name :: calls, .load⟩ last) (step : Step last after)
    (back : after.calls = calls) :
    ∃ outcome, after.control = .back outcome ∧
      after.session.passes? name = countAfter (session.passes? name) outcome := by
  have entered : Pending name calls (session.passes? name) (⟨session.lock name, name :: calls, .load⟩ : Moment σ) :=
    .within [] rfl (passes?_lock ..) fun _ => rfl
  have pending := entered.along sane within
  rcases pending.step ((Within.steps within).sane sane) step with still | ⟨outcome, _, returned, counted⟩
  · exact absurd back still.longer
  · exact ⟨outcome, returned, counted⟩

end Extension.Session
