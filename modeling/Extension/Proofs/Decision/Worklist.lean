import Extension.Proofs.Decision.Standing

namespace Extension.Decision

/-! The assignments that go through the queue of an exploration.

An assignment is a path read as a number, and its highest bit is the last answer of the path.  Between two passes no
false side is open, so what is waiting leads to the true side of a test.  During a pass the only false side that is
open is where the pass stands.
-/

theorem assignmentOf_append (first second : List Bool) :
    assignmentOf (first ++ second) = assignmentOf first + 2 ^ first.length * assignmentOf second := by
  induction first with
  | nil => simp [assignmentOf]
  | cons answer first ih =>
      rw [List.cons_append, assignmentOf, assignmentOf, ih, List.length_cons, Nat.pow_succ']
      simp only [Nat.mul_add, Nat.mul_assoc, Nat.add_assoc]

theorem assignmentOf_falseTrail (atoms : List Atom) : assignmentOf (falseTrail atoms).answers = 0 := by
  induction atoms with
  | nil => rfl
  | cons atom atoms ih =>
      have further : assignmentOf (falseTrail (atom :: atoms)).answers =
          2 * (Bool.toNat false + assignmentOf (falseTrail atoms).answers) := rfl
      rw [further, ih]
      rfl

theorem assignmentOf_lt (path : List Bool) : assignmentOf path < 2 ^ (path.length + 1) := by
  induction path with
  | nil => decide
  | cons answer path ih =>
      have even := assignmentOf_even path
      have answered : answer.toNat ≤ 1 := Bool.toNat_le answer
      rw [assignmentOf, List.length_cons]
      omega

theorem log2_assignmentOf_le (path : List Bool) : (assignmentOf path).log2 ≤ path.length := by
  by_cases nothing : assignmentOf path = 0
  · simp [nothing]
  · exact Nat.lt_succ_iff.mp ((Nat.log2_lt nothing).mpr (assignmentOf_lt path))

theorem log2_assignmentOf_true (path : List Bool) : (assignmentOf (path ++ [true])).log2 = path.length + 1 := by
  have high : 2 ^ (path.length + 1) ≤ assignmentOf (path ++ [true]) := by
    have last : assignmentOf [true] = 2 := rfl
    rw [assignmentOf_append, last, Nat.pow_succ]
    exact Nat.le_add_left ..
  have some : assignmentOf (path ++ [true]) ≠ 0 := by
    have := Nat.two_pow_pos (path.length + 1)
    omega
  have low := log2_assignmentOf_le (path ++ [true])
  rw [List.length_append, List.length_singleton] at low
  exact Nat.le_antisymm low ((Nat.le_log2 some).mpr high)

/-- No two ends of a tree have the same assignment. -/
theorem Branch.ends_assignments (branch : Branch) :
    (branch.ends.map fun found => assignmentOf found.1.answers).Nodup := by
  induction branch with
  | unresolved => simp [ends]
  | result value => simp [ends]
  | node atom onTrue onFalse trueIH falseIH =>
      have further (answer : Bool) (found : List End) (distinct : (found.map fun e => assignmentOf e.1.answers).Nodup) :
          ((found.map (End.below [(atom.text, answer)])).map fun e => assignmentOf e.1.answers).Nodup := by
        rw [List.map_map]
        refine List.pairwise_map.mpr ((List.pairwise_map.mp distinct).imp fun different same => different ?_)
        simp only [Function.comp_apply, End.below, List.singleton_append, Trail.answers_cons, assignmentOf] at same
        omega
      simp only [ends, List.map_append]
      refine List.nodup_append.mpr ⟨further true _ trueIH, further false _ falseIH, ?_⟩
      -- the first answer is the lowest bit behind the one that is always clear
      simp only [List.map_map, List.mem_map]
      rintro _ ⟨left, _, rfl⟩ _ ⟨right, _, rfl⟩ same
      have leftEven := assignmentOf_even left.1.answers
      have rightEven := assignmentOf_even right.1.answers
      simp only [Function.comp_apply, End.below, List.singleton_append, Trail.answers_cons, assignmentOf,
        Bool.toNat_true, Bool.toNat_false] at same
      omega

/-- All assignments that have been in the queue, in the order in which they came there. -/
def Exploration.queued (exploration : Exploration) : List Nat :=
  exploration.records.map PassRecord.assignment ++ exploration.queue

theorem Exploration.queued_record {exploration : Exploration} {assignment : Nat} {queue : List Nat}
    (next : exploration.queue = assignment :: queue) (tree : Tree) (pass : Pass) (result : Bool) :
    (exploration.record queue assignment tree pass result).queued =
      exploration.queued ++ branchingAssignments assignment pass.discovered := by
  simp [queued, record, next]

/-- The bits of the assignment lead to a test whose true side is open, the highest one as its depth. -/
inductive Tree.Awaits (tree : Tree) : Nat → Prop
  | root (opened : tree.onTrue = .unresolved) : Awaits tree 0
  | test {assignment : Nat} {path : List Bool} {atom : Atom} {onFalse : Branch}
      (here : tree.at? path = some (.node atom .unresolved onFalse)) (depth : atom.depth = assignment.log2)
      (below : path.length + 1 = assignment.log2) (lower : forced assignment 0 path.length = path) :
      Awaits tree assignment

/-- What a pass discovers lies deeper than the highest bit of its assignment, test behind test, and is answered with
false. -/
structure Discovers (assignment : Nat) (transcript : Trail) (discovered : List Atom) : Prop where
  deeper : ∀ atom ∈ discovered, (assignment.log2 : Int) < atom.depth
  refused : ∀ atom ∈ discovered, transcript[atom.depth.toNat - 1]? = some (atom.text, false)
  consecutive : ∃ depth, Consecutive depth discovered

/-- An open place behind the answer false is where the pass stands. -/
def Tree.Steered (tree : Tree) (standing : Option (List Bool)) : Prop :=
  ∀ path atom, tree.marked path = some (.test atom) → tree.marked (path ++ [false]) = none →
    standing = some (path ++ [false])

structure PassRecord.Finished (record : PassRecord) : Prop where
  forced : record.assignment = assignmentOf record.answers
  discovers : Discovers record.assignment record.transcript record.discovered

/-- What tests and the ends of passes keep, with the pass that is being run, if there is one. -/
structure Exploration.Kept (exploration : Exploration) (running : Option Pass) : Prop where
  steered : exploration.tree.Steered (running.map Pass.answers)
  finished : ∀ record ∈ exploration.records, record.Finished

/-- What holds of the assignments of an exploration, with the pass that is being run, if there is one. -/
structure Exploration.Scheduled (capacity : Nat) (exploration : Exploration) (running : Option Pass) : Prop where
  distinct : exploration.queued.Nodup
  even : ∀ assignment ∈ exploration.queued, assignment.testBit 0 = false
  bounded : ∀ assignment ∈ exploration.queued, assignment < 2 ^ (capacity + 1)
  popped : running = none → ∀ assignment queue, exploration.queue = assignment :: queue →
    exploration.tree.Awaits assignment
  runs : ∀ pass, running = some pass → ∃ assignment queue, exploration.queue = assignment :: queue ∧
    pass.assignment = assignment ∧ Discovers assignment pass.transcript pass.discovered
  ran : ∀ record ∈ exploration.records, Discovers record.assignment record.transcript record.discovered

theorem Consecutive.depth {depth place : Nat} {atoms : List Atom} {atom : Atom} (consecutive : Consecutive depth atoms)
    (found : atoms[place]? = some atom) : atom.depth = (depth + place + 1 : Nat) := by
  induction atoms generalizing depth place with
  | nil => cases found
  | cons first atoms ih =>
      cases place with
      | zero =>
          cases found
          exact consecutive.1
      | succ place =>
          rw [ih consecutive.2 found]
          omega

theorem Discovers.behind {assignment : Nat} {trail : Trail} {atoms : List Atom} (high : assignment.log2 ≤ trail.length)
    (consecutive : Consecutive trail.length atoms) : Discovers assignment (trail ++ falseTrail atoms) atoms where
  deeper atom member := by
    obtain ⟨place, found⟩ := List.mem_iff_getElem?.mp member
    have depth := consecutive.depth found
    omega
  refused atom member := by
    obtain ⟨place, found⟩ := List.mem_iff_getElem?.mp member
    have position : atom.depth.toNat - 1 = trail.length + place := by
      have depth := consecutive.depth found
      omega
    rw [position, List.getElem?_append_right (Nat.le_add_right ..), Nat.add_sub_cancel_left, falseTrail,
      List.getElem?_map, found]
    rfl
  consecutive := ⟨_, consecutive⟩

theorem Discovers.nothing (assignment : Nat) (transcript : Trail) : Discovers assignment transcript [] where
  deeper _ member := by cases member
  refused _ member := by cases member
  consecutive := ⟨0, trivial⟩

section Passes

variable {capacity : Nat} {exploration : Exploration} {pass : Pass} {assignment : Nat} {queue : List Nat}
variable {σ : Type} {step : σ → Move σ}

namespace Underway

/-- The queue and the records are those of the moment when the pass began. -/
theorem since (underway : Underway capacity exploration pass) :
    ∃ before, Accounted capacity before ∧ before.queue = exploration.queue ∧ before.records = exploration.records := by
  cases underway with
  | led opening => exact ⟨_, opening.accounted, rfl, rfl⟩
  | grown opening => exact ⟨_, opening.accounted, rfl, rfl⟩

theorem discovers (underway : Underway capacity exploration pass) :
    ∃ assignment queue, exploration.queue = assignment :: queue ∧ pass.assignment = assignment ∧
      Discovers assignment pass.transcript pass.discovered := by
  cases underway with
  | led opening => exact ⟨_, _, opening.queue, rfl, .nothing ..⟩
  | @grown before trail waiting atoms opening consecutive fits =>
      refine ⟨_, _, opening.queue, rfl, ?_⟩
      have high : trail.assignment.log2 ≤ trail.length := by
        rw [← Trail.answers_length]
        exact log2_assignmentOf_le _
      simpa [Pass.grown, Pass.along, freshPass] using Discovers.behind high consecutive

/-- At an open place the pass has come to the end of the path of its assignment. -/
theorem arrived (underway : Underway capacity exploration pass) (next : exploration.queue = assignment :: queue)
    (opened : exploration.tree.at? pass.answers = some .unresolved) :
    assignment = assignmentOf pass.answers ∧ bit pass.assignment pass.nextDepth = false := by
  cases underway with
  | @led before trail waiting met rest text answer opening split =>
      obtain ⟨atom, onTrue, onFalse, here, _⟩ := opening.node split
      rw [led_position, here] at opened
      cases opened
  | @grown before trail waiting atoms opening consecutive fits =>
      obtain ⟨rfl, _⟩ := List.cons.inj (next.symm.trans opening.queue)
      constructor
      · rw [grown_position, assignmentOf_append, assignmentOf_falseTrail, Nat.mul_zero, Nat.add_zero]
        rfl
      · rw [grown_nextDepth]
        refine freshPass_false ?_ capacity
        rw [Trail.answers_length]
        omega

end Underway

namespace Accounted

theorem queued_perm (accounted : Accounted capacity exploration)
    (finished : ∀ record ∈ exploration.records, record.Finished) :
    exploration.queued.Perm (exploration.tree.onTrue.ends.map fun found => assignmentOf found.1.answers) := by
  obtain ⟨waiting, queue, ends⟩ := accounted.accounted
  have recorded : exploration.records.map PassRecord.assignment =
      (exploration.records.map PassRecord.finalEnd).map fun found => assignmentOf found.1.answers := by
    rw [List.map_map]
    exact List.map_congr_left fun record member => (finished record member).forced
  have awaited : exploration.queue = (waiting.map openEnd).map fun found => assignmentOf found.1.answers := by
    rw [queue, List.map_map]
    rfl
  rw [Exploration.queued, recorded, awaited, ← List.map_append]
  exact (List.perm_append_comm.trans ends).map _

theorem bounds (accounted : Accounted capacity exploration)
    (finished : ∀ record ∈ exploration.records, record.Finished) :
    exploration.queued.Nodup ∧ ∀ assignment ∈ exploration.queued,
      assignment.testBit 0 = false ∧ assignment < 2 ^ (capacity + 1) := by
  have same := accounted.queued_perm finished
  refine ⟨same.nodup_iff.mpr exploration.tree.onTrue.ends_assignments, fun assignment member => ?_⟩
  obtain ⟨⟨way, result⟩, there, rfl⟩ := List.mem_map.mp (same.mem_iff.mp member)
  have short := accounted.numbered.length_le (Nat.zero_le capacity) (Branch.mem_ends_iff.mp there).1
  constructor
  · simp [Nat.testBit_zero, assignmentOf_even]
  · refine Nat.lt_of_lt_of_le (assignmentOf_lt _) (Nat.pow_le_pow_right Nat.two_pos ?_)
    change way.answers.length + 1 ≤ capacity + 1
    omega

/-- What is popped between two passes leads to the true side of a test. -/
theorem awaits (accounted : Accounted capacity exploration) (steered : exploration.tree.Steered none)
    (next : exploration.queue = assignment :: queue) : exploration.tree.Awaits assignment := by
  obtain ⟨waiting, queued, ends⟩ := accounted.accounted
  cases waiting with
  | nil => simp [next] at queued
  | cons trail waiting =>
      obtain ⟨rfl, _⟩ := List.cons.inj (next.symm.trans queued)
      have member : openEnd trail ∈ exploration.tree.onTrue.ends := ends.mem_iff.mp (by simp)
      have opened : exploration.tree.at? trail.answers = some .unresolved := (Branch.mem_ends_iff.mp member).1
      rw [Trail.assignment]
      generalize trail.answers = answers at opened
      rcases List.eq_nil_or_concat answers with rfl | ⟨path, answer, rfl⟩
      · exact .root (Option.some.inj opened)
      · rw [List.concat_eq_append] at opened ⊢
        obtain ⟨atom, here⟩ := Branch.follow_concat_isSome.mp (Option.isSome_iff_exists.mpr ⟨_, opened⟩)
        cases answer with
        | false => cases steered path atom here (Tree.marked_open opened)
        | true =>
            obtain ⟨onTrue, onFalse, found⟩ := Tree.node_of_marked here
            rw [Tree.at?_append found] at opened
            obtain rfl : onTrue = .unresolved := Option.some.inj opened
            have depth := accounted.numbered.depth_at found
            have top := log2_assignmentOf_true path
            refine .test found (by rw [depth, top, Nat.zero_add]) top.symm ?_
            have whole := forced_assignmentOf [] (path ++ [true])
            exact forced_before whole

end Accounted

namespace Exploration

theorem Kept.scheduled (kept : exploration.Kept none) (accounted : Accounted capacity exploration) :
    exploration.Scheduled capacity none where
  distinct := (accounted.bounds kept.finished).1
  even assignment member := ((accounted.bounds kept.finished).2 assignment member).1
  bounded assignment member := ((accounted.bounds kept.finished).2 assignment member).2
  popped _ _ _ next := accounted.awaits kept.steered next
  runs _ running := by cases running
  ran record member := (kept.finished record member).discovers

theorem Kept.scheduled_running (kept : exploration.Kept (some pass)) (underway : Underway capacity exploration pass) :
    exploration.Scheduled capacity (some pass) := by
  obtain ⟨before, accounted, queue, records⟩ := underway.since
  have finished : ∀ record ∈ before.records, record.Finished := by
    rw [records]
    exact kept.finished
  have same : before.queued = exploration.queued := by rw [queued, queued, queue, records]
  obtain ⟨distinct, bounds⟩ := accounted.bounds finished
  rw [same] at distinct bounds
  exact {
    distinct
    even := fun assignment member => (bounds assignment member).1
    bounded := fun assignment member => (bounds assignment member).2
    popped := fun between => by cases between
    runs := fun found running => by
      obtain rfl := Option.some.inj running
      exact underway.discovers
    ran := fun record member => (kept.finished record member).discovers }

theorem Kept.begun : Kept {} none where
  steered path atom here _ := by cases path <;> cases here
  finished _ member := by cases member

theorem Kept.open (kept : exploration.Kept none) (pass : Pass) : exploration.Kept (some pass) where
  steered path atom here opened := by cases kept.steered path atom here opened
  finished := kept.finished

theorem Kept.read (kept : exploration.Kept (some pass)) (underway : Underway capacity exploration pass) {test : Test}
    {answered : Answered} (read : pass.read exploration.tree test = .ok answered) :
    Kept { exploration with tree := answered.tree } (some answered.pass) := by
  refine ⟨?_, kept.finished⟩
  have active : pass.active = true := by
    cases closed : pass.active with
    | true => rfl
    | false =>
        rw [Pass.read_over closed] at read
        cases read
  rw [Pass.read_eq active] at read
  rcases underway.place with ⟨atom, here⟩ | opened
  · rw [here] at read
    simp only at read
    split at read
    · cases read
      intro path met there opened
      -- the open place would be where the pass stood, but that is marked
      have stood : pass.answers = path ++ [false] := Option.some.inj (kept.steered path met there opened)
      rw [stood, opened] at here
      cases here
    · cases read
  · have place : (exploration.tree.at? pass.answers).isSome = true := by rw [opened]; rfl
    have unmarked := Tree.marked_open opened
    rw [unmarked] at read
    simp only at read
    split at read
    · cases read
    · cases read
      have gains := Tree.Gains.put place unmarked (.test (pass.newAtom test))
      obtain ⟨assignment, queue, next⟩ := underway.queued
      intro path met there free
      rw [gains.marked] at there free
      split at free
      · cases free
      · next apart =>
          split at there
          · next same =>
              subst same
              rw [Option.map_some, Pass.past_answers, (underway.arrived next opened).2]
          · have stood : pass.answers = path ++ [false] := Option.some.inj (kept.steered path met there free)
            exact absurd stood.symm apart

theorem Kept.close (kept : exploration.Kept (some pass)) (underway : Underway capacity exploration pass)
    (next : exploration.queue = assignment :: queue) {tree : Tree} {result : Bool}
    (resolved : pass.resolve exploration.tree result = .ok tree) :
    (exploration.record queue assignment tree pass result).Kept none := by
  have opened := underway.resolve_open resolved
  have unmarked := Tree.marked_open opened
  rw [Pass.resolve_eq, unmarked] at resolved
  cases resolved
  constructor
  · have place : (exploration.tree.at? pass.answers).isSome = true := by rw [opened]; rfl
    have gains := Tree.Gains.put place unmarked (.result result)
    intro path met there free
    change (exploration.tree.put pass.answers (Mark.result result).branch).marked _ = _ at there free
    rw [gains.marked] at there free
    split at free
    · cases free
    · next apart =>
        split at there
        · cases there
        · have stood : pass.answers = path ++ [false] := Option.some.inj (kept.steered path met there free)
          exact absurd stood.symm apart
  · intro record member
    rcases List.mem_append.mp member with earlier | last
    · exact kept.finished record earlier
    · obtain ⟨found, rest, queued, same, discovers⟩ := underway.discovers
      obtain ⟨rfl, rfl⟩ := List.cons.inj (next.symm.trans queued)
      rw [List.mem_singleton.mp last]
      exact ⟨(underway.arrived next opened).1, discovers⟩

theorem queued_grows (exploration : Exploration) {start : List PassRecord → σ} :
    exploration.queued <+: (advance step start capacity exploration).queued := by
  cases next : exploration.queue with
  | nil => simp [advance, next]
  | cons assignment queue =>
      generalize ran : runPass step capacity (start exploration.records) exploration.tree { assignment, capacity } = ended
      cases ended with
      | error fault =>
          rw [advance_error next ran]
          exact List.prefix_refl _
      | ok ended =>
          rw [advance_ok next ran, queued_record next]
          exact List.prefix_append ..

end Exploration

theorem runPass_ok {budget : Nat} {state : σ} {tree resolved : Tree} {ended : Pass} {result : Bool}
    (ran : runPass step budget state tree pass = .ok (resolved, ended, result)) :
    pass.resolve tree result = .ok resolved ∧ ended = pass ∨
    ∃ test answered fewer next, budget = fewer + 1 ∧ pass.read tree test = .ok answered ∧
      runPass step fewer next answered.tree answered.pass = .ok (resolved, ended, result) := by
  cases move : step state with
  | raise fault =>
      rw [runPass_raise move] at ran
      cases ran
  | finish value =>
      rw [runPass_finish move] at ran
      cases resolves : pass.resolve tree value.truthy with
      | error fault => simp [resolves, Except.map] at ran
      | ok settled =>
          simp only [resolves, Except.map, Except.ok.injEq, Prod.mk.injEq] at ran
          obtain ⟨rfl, rfl, rfl⟩ := ran
          exact .inl ⟨resolves, rfl⟩
  | read test next =>
      cases read : pass.read tree test with
      | error fault =>
          rw [runPass_refused move read] at ran
          cases ran
      | ok answered =>
          cases budget with
          | zero =>
              rw [runPass_exhausted move read] at ran
              cases ran
          | succ fewer =>
              rw [runPass_answered move read] at ran
              exact .inr ⟨test, answered, fewer, _, rfl, read, ran⟩

/-- A pass that ends without a fault resolves a tree that its tests have grown. -/
theorem runPass_kept {budget : Nat} {state : σ} {tree resolved : Tree} {ended : Pass} {result : Bool}
    (underway : Underway capacity { exploration with tree } pass)
    (kept : Exploration.Kept { exploration with tree } (some pass))
    (ran : runPass step budget state tree pass = .ok (resolved, ended, result)) :
    ∃ last, Underway capacity { exploration with tree := last } ended ∧
      Exploration.Kept { exploration with tree := last } (some ended) ∧ ended.resolve last result = .ok resolved := by
  induction budget generalizing state tree pass with
  | zero =>
      rcases runPass_ok ran with ⟨resolves, rfl⟩ | ⟨_, _, _, _, none, _⟩
      · exact ⟨tree, underway, kept, resolves⟩
      · cases none
  | succ budget ih =>
      rcases runPass_ok ran with ⟨resolves, rfl⟩ | ⟨test, answered, fewer, next, one, read, ran⟩
      · exact ⟨tree, underway, kept, resolves⟩
      · obtain rfl := Nat.succ.inj one
        exact ih (underway.read read) (kept.read underway read) ran

theorem Reachable.kept {start : List PassRecord → σ} (reachable : Reachable step start capacity exploration) :
    exploration.Kept none := by
  induction reachable with
  | begun => exact .begun
  | @advanced before reached busy ih =>
      cases next : before.queue with
      | nil => simpa [advance, next] using ih
      | cons assignment queue =>
          generalize ran : runPass step capacity (start before.records) before.tree { assignment, capacity } = ended
          cases ended with
          | error fault =>
              rw [advance_error next ran]
              exact ⟨ih.steered, ih.finished⟩
          | ok ended =>
              obtain ⟨tree, pass, result⟩ := ended
              rw [advance_ok next ran]
              have begins := Underway.begin reached.sound.toAccounted next
              obtain ⟨last, underway, kept, resolves⟩ := runPass_kept begins (ih.open _) ran
              exact kept.close underway next resolves

end Passes

end Extension.Decision
