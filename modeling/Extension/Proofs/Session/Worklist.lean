import Extension.Proofs.Decision.Worklist
import Extension.Proofs.Session.Capacity

namespace Extension

open Decision

/-! The assignments of all explorations of a session.

What the tests and the ends of passes keep is kept by whatever foreign code does between them.
-/

/-- The exploration, and what has been in its queue. -/
def Frame.ledger (frame : Frame) : Nat × List Nat :=
  (frame.serial, frame.exploration.queued)

theorem Frame.close_running {frame ended : Frame} {value : Value} {pass : Pass} {assignment : Nat} {queue : List Nat}
    (running : frame.pass = some pass) (next : frame.exploration.queue = assignment :: queue)
    (closed : frame.close value = .ok ended) :
    ∃ tree, pass.resolve frame.exploration.tree value.truthy = .ok tree ∧
      ended.exploration = frame.exploration.record queue assignment tree pass value.truthy := by
  simp only [Frame.close, running, next] at closed
  cases resolved : pass.resolve frame.exploration.tree value.truthy with
  | error fault => simp [resolved] at closed
  | ok tree =>
      simp only [resolved, Except.ok.injEq] at closed
      exact ⟨tree, rfl, by rw [← closed]⟩

namespace Session

variable {σ : Type}

/-- Between the tests of foreign code, the assignments of all explorations are in order. -/
def Kept (session : Session σ) : Prop :=
  ∀ frame ∈ session.frames, frame.exploration.Kept frame.pass

variable {session : Session σ} {before after : Moment σ}

theorem Kept.of_subset {other : Session σ} (kept : session.Kept) (subset : other.frames ⊆ session.frames) :
    other.Kept :=
  fun frame member => kept frame (subset member)

theorem Kept.pop (kept : session.Kept) : session.pop.Kept :=
  kept.of_subset fun _ => List.mem_of_mem_tail

theorem Kept.read (kept : session.Kept) (running : ∀ frame ∈ session.frames, frame.IsRunning) (handle : Handle)
    (test : Test) : (session.readThrough handle test).2.Kept := by
  rcases session.readThrough_cases handle test with same | ⟨frame, pass, answered, member, standing, read, same⟩
  · rw [same]
    exact kept
  · rw [same]
    intro found there
    obtain ⟨old, before, replaced⟩ := List.mem_map.mp there
    split at replaced
    · obtain ⟨ran, stood, underway⟩ := running frame member
      obtain rfl := Option.some.inj (stood.symm.trans standing)
      have own := kept frame member
      rw [standing] at own
      rw [← replaced]
      exact own.read underway read
    · rw [← replaced]
      exact kept old before

theorem Step.kept (step : Step before after) (sane : Sane before) (kept : before.session.Kept) :
    after.session.Kept := by
  have framed := sane.framed
  cases step with
  | aside | ask | unknown | refuse | unset | back => exact kept
  | read handle test =>
      cases framed with
      | foreign stacked => exact kept.read stacked.running handle test
  | enter found unlocked => exact kept.of_subset (List.Perm.subset (.of_eq (lock_frames _)))
  | leave => exact kept.of_subset (List.Perm.subset (.of_eq (unlock_frames _)))
  | load found current => exact List.forall_mem_cons.mpr ⟨.begun, kept⟩
  | @begin session calls frame outer assignment queue frames queued =>
      cases framed with
      | drive innermost named between stacked =>
          obtain ⟨rfl, rfl⟩ := List.cons.inj (frames.symm.trans innermost)
          rw [Kept, frames, List.forall_mem_cons, between.none] at kept
          rw [Kept, openPass_frames frames]
          exact List.forall_mem_cons.mpr ⟨kept.1.open _, kept.2⟩
  | finish frames empty =>
      refine Kept.pop (kept.of_subset ?_)
      rw [countPasses_frames]
      exact List.Subset.refl _
  | @settle session after calls name value closed =>
      cases framed with
      | foreign stacked =>
          obtain ⟨frame, outer, frames, _, ⟨pass, standing, underway⟩, _⟩ := stacked.cons
          obtain ⟨settled, closes, rfl⟩ := closePass_ok frames closed
          obtain ⟨assignment, queue, next⟩ := underway.queued
          obtain ⟨tree, resolves, same⟩ := Frame.close_running standing next closes
          have ended := Frame.IsRunning.close ⟨pass, standing, underway⟩ closes
          rw [Kept, frames, List.forall_mem_cons, standing] at kept
          refine List.forall_mem_cons.mpr ⟨?_, kept.2⟩
          rw [ended.between.none, same]
          exact kept.1.close underway next resolves
  | reject refused => exact kept.pop
  | raise fault => exact kept.pop

theorem Steps.kept (steps : Steps before after) (sane : Sane before) (kept : before.session.Kept) :
    after.session.Kept := by
  induction steps with
  | refl => exact kept
  | tail earlier step ih => exact step.kept (Steps.sane earlier sane) ih

theorem Kept.scheduled {moment : Moment σ} (kept : moment.session.Kept) (sane : Sane moment) :
    ∀ frame ∈ moment.session.frames, frame.exploration.Scheduled frame.capacity frame.pass := by
  intro frame member
  have own := kept frame member
  rcases sane.framed.cases member with ⟨pass, standing, underway⟩ | between
  · rw [standing] at own ⊢
    exact own.scheduled_running underway
  · rw [between.none] at own ⊢
    exact own.scheduled between.accounted

/-- Two moments have an exploration in common when it has the same number in both. -/
theorem queued_of_ledgers {frames later : List Frame} (distinct : (frames.map Frame.serial).Nodup)
    (same : later.map Frame.ledger ⊆ frames.map Frame.ledger) {frame ended : Frame} (member : frame ∈ frames)
    (there : ended ∈ later) (serial : ended.serial = frame.serial) :
    frame.exploration.queued <+: ended.exploration.queued := by
  obtain ⟨old, found, ledger⟩ := List.mem_map.mp (same (List.mem_map_of_mem there))
  obtain ⟨number, queued⟩ := Prod.mk.inj ledger
  obtain rfl := List.inj_on_of_nodup_map distinct found member (number.trans serial)
  exact queued ▸ List.prefix_refl _

/-- What has been in the queue of an exploration stays on record. -/
theorem Step.queued (step : Step before after) (sane : Sane before) {frame ended : Frame}
    (member : frame ∈ before.session.frames) (there : ended ∈ after.session.frames)
    (serial : ended.serial = frame.serial) : frame.exploration.queued <+: ended.exploration.queued := by
  have distinct := serials_nodup sane.serials
  have kept {frames : List Frame} (same : frames ⊆ before.session.frames) (there : ended ∈ frames) :
      frame.exploration.queued <+: ended.exploration.queued :=
    queued_of_ledgers distinct (List.map_subset _ same) member there serial
  cases step with
  | aside | ask | unknown | refuse | unset | back => exact kept (List.Subset.refl _) there
  | @read session calls handle test =>
      refine queued_of_ledgers distinct ?_ member there serial
      change (session.readThrough handle test).2.frames.map _ ⊆ session.frames.map _
      rcases session.readThrough_cases handle test with same | ⟨met, pass, answered, inside, _, _, same⟩
      · rw [same]
        exact List.Subset.refl _
      · rw [same]
        exact List.Perm.subset (.of_eq (setFrame_map Frame.ledger distinct inside rfl rfl))
  | enter found unlocked => exact kept (List.Perm.subset (.of_eq (lock_frames _))) there
  | leave => exact kept (List.Perm.subset (.of_eq (unlock_frames _))) there
  | @load session calls name member settings found current =>
      rcases List.mem_cons.mp there with rfl | there
      · have earlier := (List.pairwise_cons.mp sane.serials).1 frame.serial (List.mem_map_of_mem member)
        exact absurd serial (Nat.ne_of_gt earlier)
      · exact kept (List.Subset.refl _) there
  | @begin session calls first outer assignment queue frames queued =>
      refine queued_of_ledgers distinct ?_ member there serial
      rw [openPass_frames frames, frames]
      exact List.Subset.refl _
  | finish frames empty =>
      refine kept (fun _ => List.mem_of_mem_tail) (?_ : ended ∈ List.tail _)
      rw [← countPasses_frames]
      exact there
  | @settle session after calls name value closed =>
      cases sane.framed with
      | foreign stacked =>
          obtain ⟨first, outer, frames, _, ⟨pass, standing, underway⟩, _⟩ := stacked.cons
          obtain ⟨settled, closes, rfl⟩ := closePass_ok frames closed
          obtain ⟨assignment, queue, next⟩ := underway.queued
          obtain ⟨tree, _, same⟩ := Frame.close_running standing next closes
          rcases List.mem_cons.mp there with rfl | there
          · have number := (Frame.IsRunning.close ⟨pass, standing, underway⟩ closes).serial
            have own : first ∈ session.frames := by rw [frames]; exact List.mem_cons_self ..
            obtain rfl := List.inj_on_of_nodup_map distinct own member (number.symm.trans serial)
            rw [same, Exploration.queued_record next]
            exact List.prefix_append ..
          · have outside : outer ⊆ session.frames := by
              rw [frames]
              exact List.subset_cons_self ..
            exact kept outside there
  | reject refused | raise fault => exact kept (fun _ => List.mem_of_mem_tail) there

/-- Whatever foreign code does, the assignments of an exploration are different even numbers within its capacity.
Each is popped to resolve the true side of the test that its bits lead to, and what its pass discovers lies deeper.
The same holds of an exploration that is run on its own. -/
theorem assignments_lead_to_open_sides (environment : Environment) (expressions : Entries (Expression σ)) :
    (∀ moment, Steps (idle (opened environment expressions)) moment →
      (∀ frame ∈ moment.session.frames, frame.exploration.Scheduled frame.capacity frame.pass ∧
        (frame.capacity = (default : Settings).maxAtoms → ∀ assignment ∈ frame.exploration.queued,
          assignment < 2 ^ 32)) ∧
      ∀ after, Step moment after → ∀ frame ∈ moment.session.frames, ∀ ended ∈ after.session.frames,
        ended.serial = frame.serial → frame.exploration.queued <+: ended.exploration.queued) ∧
    ∀ {τ : Type} (step : τ → Move τ) (start : List PassRecord → τ) (capacity : Nat) (exploration : Exploration),
      Reachable step start capacity exploration → exploration.Scheduled capacity none ∧
        exploration.queued <+: (advance step start capacity exploration).queued := by
  constructor
  · intro moment steps
    have outside := sane_opened environment expressions
    have sane := Steps.sane steps outside
    have kept : moment.session.Kept := Steps.kept steps outside fun frame member => by cases member
    refine ⟨fun frame member => ?_, fun after step frame member ended there => step.queued sane member there⟩
    have scheduled := kept.scheduled sane frame member
    refine ⟨scheduled, fun capacity assignment queued => ?_⟩
    have bounded := scheduled.bounded assignment queued
    rw [capacity] at bounded
    exact bounded
  · intro τ step start capacity exploration reachable
    exact ⟨reachable.kept.scheduled reachable.sound.toAccounted, exploration.queued_grows⟩

/-- The first pass over two keys discovers both, and its exploration goes on at the true side of the first one. -/
theorem two_keys_scheduled :
    ∃ session : Session Script,
      Steps (idle (opened [] [("a", .ofRule "a" (.any [keyRule "k", keyRule "l"]) (some twoAtoms))]))
        ⟨session, ["a"], .drive⟩ ∧
      ∀ frame ∈ session.frames, frame.exploration.queued = [0, 2, 4] ∧ frame.exploration.queued.Nodup ∧
        frame.exploration.tree.Awaits 2 := by
  have start : Steps (idle (opened [] [("a", .ofRule "a" (.any [keyRule "k", keyRule "l"]) (some twoAtoms))])) _ :=
    .single (.ask "a")
  have begun := (((start.tail (.enter rfl rfl)).tail (.load rfl rfl)).tail (.begin rfl rfl))
  have answered := (begun.tail (.read ⟨0, 0⟩ ⟨"k", "k"⟩)).tail (.read ⟨0, 0⟩ ⟨"l", "l"⟩)
  have ended := answered.tail (@Step.settle _ _ _ _ _ (.bool false) rfl)
  refine ⟨_, ended, List.forall_mem_singleton.mpr ?_⟩
  have scheduled := ((assignments_lead_to_open_sides _ _).1 _ ended).1 _ (List.mem_singleton_self _)
  exact ⟨rfl, scheduled.1.distinct, scheduled.1.popped rfl _ _ rfl⟩

end Session

end Extension
