import Extension.Proofs.Decision.Pass
import Extension.Proofs.Decision.Repetition
import Extension.Proofs.Decision.Walk

namespace Extension.Decision

/-! Exploring any rule, pure or not.

Between two passes every end of the tree is accounted for: a result by the pass that found it, an open end by
the assignment in the queue that leads to it.  `Sound` says so, and `Reached.sound` that it stays true.  When
the queue is empty only results are left.
-/

variable {σ : Type} (step : σ → Move σ)

def freshPass (path : List Bool) (capacity : Nat) : Pass :=
  { assignment := assignmentOf path, capacity }

/-- What can keep a pass from its end, whose assignment forces the path to an open end. -/
inductive Halts (capacity : Nat) (state : σ) (tree : Tree) (path : List Bool) : Fault → Prop
  | stops {fault : Fault} (stops : StopsOn step tree.onTrue state path fault) :
      Halts capacity state tree path fault
  | raises {asked : Trail} {last : σ} {fault : Fault} (reads : Reads step state asked last)
      (raises : step last = .raise fault) : Halts capacity state tree path fault
  | tooDeep {asked : Trail} {last : σ} {test : Test} {next : Bool → σ} (reads : Reads step state asked last)
      (full : asked.length = capacity) (asks : step last = .read test next) :
      Halts capacity state tree path (.tooDeep test.text (capacity + 1) capacity)

inductive PassOutcome (capacity : Nat) (state : σ) (tree : Tree) (path : List Bool) :
    Except Fault (Tree × Pass × Bool) → Prop
  | completes {last : σ} {atoms : List Atom} {result : Bool}
      (reads : Reads step state (tree.onTrue.trail path) last)
      (grows : Grows step path.length last atoms result) (fits : path.length + atoms.length ≤ capacity) :
      PassOutcome capacity state tree path (.ok (tree.put path (chain atoms result),
        ((freshPass path capacity).along (tree.onTrue.trail path)).grown atoms, result))
  | halts {fault : Fault} (halts : Halts step capacity state tree path fault) :
      PassOutcome capacity state tree path (.error fault)

variable {step}

theorem freshPass_here (tree : Tree) (path : List Bool) (capacity : Nat) :
    tree.at? (freshPass path capacity).answers = some tree.onTrue := by
  rw [Tree.at?]
  cases tree.onTrue <;> rfl

theorem freshPass_answered (path : List Bool) (capacity : Nat) :
    forced (freshPass path capacity).assignment 0 path.length = path :=
  forced_assignmentOf [] path

theorem freshPass_false {path : List Bool} {depth : Nat} (behind : path.length < depth) (capacity : Nat) :
    bit (freshPass path capacity).assignment depth = false := by
  obtain ⟨place, rfl⟩ : ∃ place, depth = place + 1 := ⟨depth - 1, by omega⟩
  have none : path[place]? = none := List.getElem?_eq_none (by omega)
  exact (bit_assignmentOf path place).trans (by simp [none])

theorem runPass_stopped {tree : Tree} {path : List Bool} {capacity : Nat} {state : σ} {fault : Fault}
    (room : path.length ≤ capacity) (stops : StopsOn step tree.onTrue state path fault) :
    runPass step capacity state tree (freshPass path capacity) = .error fault := by
  have stopped := runPass_stops (by rfl) (freshPass_here tree path capacity) stops
    (freshPass_answered path capacity) (capacity - path.length)
  rwa [Nat.sub_add_cancel room] at stopped

theorem runPass_led {tree : Tree} {path : List Bool} {capacity : Nat} {state last : σ}
    (opened : tree.at? path = some .unresolved) (room : path.length ≤ capacity)
    (reads : Reads step state (tree.onTrue.trail path) last) :
    runPass step capacity state tree (freshPass path capacity) =
      runPass step (capacity - path.length) last tree
        ((freshPass path capacity).along (tree.onTrue.trail path)) := by
  have position := Branch.trail_answers opened
  have count : (tree.onTrue.trail path).length = path.length := by rw [← Trail.answers_length, position]
  have led := runPass_along (by rfl) reads (freshPass_here tree path capacity)
    (by rw [position]; exact opened) (by rw [position])
    (by rw [count, position]; exact freshPass_answered path capacity) (capacity - path.length)
  rwa [count, Nat.sub_add_cancel room] at led

variable (step) in
theorem runPass_outcome {tree : Tree} {path : List Bool} {capacity : Nat}
    (opened : tree.at? path = some .unresolved) (room : path.length ≤ capacity) (state : σ) :
    PassOutcome step capacity state tree path
      (runPass step capacity state tree (freshPass path capacity)) := by
  rcases reads_or_stops step tree.onTrue .unresolved state path opened with ⟨last, reads⟩ | ⟨fault, stops⟩
  · rw [runPass_led opened room reads]
    let moved := (freshPass path capacity).along (tree.onTrue.trail path)
    have answers : moved.answers = path := Branch.trail_answers opened
    have length : moved.transcript.length = path.length := by
      rw [← congrArg List.length answers, Pass.answers, List.length_map]
    have here : tree.at? moved.answers = some .unresolved := by rw [answers, opened]
    have falses (depth : Nat) (behind : moved.transcript.length < depth) : bit moved.assignment depth = false :=
      freshPass_false (length ▸ behind) capacity
    have limit : moved.capacity = (moved.transcript.length + (capacity - path.length) : Nat) := by
      rw [length, Nat.add_sub_cancel' room]
      rfl
    have growth : Growth step last tree moved (capacity - path.length) _ :=
      runPass_growth (by rfl) here falses _ limit
    generalize runPass step (capacity - path.length) last tree moved = outcome at growth ⊢
    cases growth with
    | grows grows fits =>
        rw [length] at grows
        rw [answers]
        exact .completes reads grows (by omega)
    | raises asks raises => exact .halts (.raises (reads.append asks) raises)
    | tooDeep asks full next =>
        rw [length, Nat.add_sub_cancel' room]
        refine .halts (.tooDeep (reads.append asks) ?_ next)
        have before : (tree.onTrue.trail path).length = path.length := length
        rw [List.length_append, before, full, Nat.add_sub_cancel' room]
  · rw [runPass_stopped room stops]
    exact .halts (.stops stops)

def Trail.assignment (trail : Trail) : Nat :=
  assignmentOf trail.answers

def PassRecord.finalEnd (record : PassRecord) : End :=
  (record.transcript, some record.result)

/-- The ends of a chain at which no pass has ended. -/
def branchings : List Atom → List Trail
  | [] => []
  | atom :: atoms => [(atom.text, true)] :: (branchings atoms).map ((atom.text, false) :: ·)

def openEnd (trail : Trail) : End :=
  (trail, none)

/-- A chain is open on the true side of each test, and its result is at its end. -/
theorem ends_chain (atoms : List Atom) (result : Bool) :
    (chain atoms result).ends = (branchings atoms).map openEnd ++ [(falseTrail atoms, some result)] := by
  induction atoms with
  | nil => rfl
  | cons atom atoms ih =>
      simp only [chain, Branch.ends, ih, branchings, falseTrail, List.map_append, List.map_cons,
        List.map_map, List.map_nil]
      rfl

/-- Each test of a chain queues the assignment that leads to its open side. -/
theorem branchingAssignments_chain {depth : Nat} {atoms : List Atom} (consecutive : Consecutive depth atoms)
    {path : List Bool} {count : Nat} (position : path.length + count = depth) :
    branchingAssignments (assignmentOf path) atoms =
      (branchings atoms).map fun trail => assignmentOf (path ++ List.replicate count false ++ trail.answers) := by
  induction atoms generalizing depth count with
  | nil => rfl
  | cons atom atoms ih =>
      obtain ⟨number, consecutive⟩ := consecutive
      have deeper : path.length + (count + 1) = depth + 1 := by omega
      have first := assignmentOf_branching path count
      rw [position] at first
      have later (trail : Trail) : assignmentOf (path ++ List.replicate (count + 1) false ++ trail.answers) =
          assignmentOf (path ++ List.replicate count false ++ Trail.answers ((atom.text, false) :: trail)) := by
        rw [List.replicate_succ', Trail.answers_cons]
        simp
      have rest := ih consecutive deeper
      simp only [branchingAssignments, later] at rest
      simp only [branchingAssignments, branchings, List.map_cons, List.map_map, rest, number]
      exact congrArg (· :: _) first

/-- The exploration after a pass that was led along a trail to an open end and has grown a chain there. -/
def Exploration.grow (exploration : Exploration) (capacity : Nat) (trail : Trail) (waiting : List Trail)
    (atoms : List Atom) (result : Bool) : Exploration :=
  exploration.record (waiting.map Trail.assignment) trail.assignment
    (exploration.tree.put trail.answers (chain atoms result))
    (((freshPass trail.answers capacity).along trail).grown atoms) result

namespace Exploration

variable (exploration : Exploration) (trail : Trail) (waiting : List Trail)

theorem grow_queue {atoms : List Atom} (consecutive : Consecutive trail.length atoms) (result : Bool) :
    (exploration.grow capacity trail waiting atoms result).queue =
      (waiting ++ (branchings atoms).map (trail ++ ·)).map Trail.assignment := by
  have position : trail.answers.length + 0 = trail.length := by rw [Nat.add_zero, Trail.answers_length]
  have queued := branchingAssignments_chain consecutive position
  rw [List.replicate_zero, List.append_nil] at queued
  simp [grow, record, Pass.grown, Pass.along, freshPass, queued, Trail.assignment]

theorem grow_records (atoms : List Atom) (result : Bool) :
    (exploration.grow capacity trail waiting atoms result).records = exploration.records ++
      [{ assignment := trail.assignment, transcript := trail ++ falseTrail atoms, result, discovered := atoms }] := by
  simp [grow, record, Pass.grown, Pass.along, freshPass]

end Exploration

/-- What holds of an exploration between two passes, whatever its rule does. -/
structure Accounted (capacity : Nat) (exploration : Exploration) : Prop where
  untouched : exploration.tree.onFalse = .unresolved
  numbered : exploration.tree.onTrue.Numbered capacity 0
  /-- Every end of the tree is one that an assignment in the queue leads to, or one that a pass has found. -/
  accounted : ∃ waiting : List Trail, exploration.queue = waiting.map Trail.assignment ∧
    (waiting.map openEnd ++ exploration.records.map PassRecord.finalEnd).Perm exploration.tree.onTrue.ends

namespace Accounted

variable {capacity : Nat} {exploration : Exploration}

theorem begun (capacity : Nat) : Accounted capacity {} :=
  ⟨rfl, trivial, [[]], rfl, .refl _⟩

/-- There are no more passes, recorded or waiting, than combinations of answers within the capacity. -/
theorem count_le (accounted : Accounted capacity exploration) :
    exploration.queue.length + exploration.records.length ≤ 2 ^ capacity := by
  obtain ⟨waiting, queue, ends⟩ := accounted.accounted
  have total := ends.length_eq
  rw [List.length_append, List.length_map, List.length_map] at total
  rw [queue, List.length_map, total]
  exact accounted.numbered.ends_length_le

/-- While a pass is waiting, fewer passes are recorded than there are combinations of answers. -/
theorem records_lt (accounted : Accounted capacity exploration) {assignment : Nat} {queue : List Nat}
    (next : exploration.queue = assignment :: queue) : exploration.records.length < 2 ^ capacity := by
  have bound := accounted.count_le
  rw [next, List.length_cons] at bound
  omega

theorem finalEnds (accounted : Accounted capacity exploration) (empty : exploration.queue = []) :
    (exploration.records.map PassRecord.finalEnd).Perm exploration.tree.onTrue.ends := by
  obtain ⟨waiting, queue, ends⟩ := accounted.accounted
  have none : waiting = [] := by
    rw [empty] at queue
    exact List.map_eq_nil_iff.mp queue.symm
  simpa [none] using ends

/-- With nothing left in the queue, the results of the passes are the leaves. -/
theorem results_perm (accounted : Accounted capacity exploration) (empty : exploration.queue = []) :
    (exploration.records.map PassRecord.result).Perm exploration.tree.leaves := by
  have below : exploration.tree.leaves.Perm (exploration.tree.onTrue.ends.filterMap Prod.snd) := by
    simpa [accounted.untouched, Branch.ends] using exploration.tree.leaves_perm
  have same : exploration.records.map PassRecord.result =
      (exploration.records.map PassRecord.finalEnd).filterMap Prod.snd := by
    rw [List.filterMap_map]
    exact (congrFun List.filterMap_eq_map _).symm
  rw [same]
  exact ((accounted.finalEnds empty).filterMap _).trans below.symm

/-- A chain that grows at an open end leaves everything accounted for. -/
theorem grow (accounted : Accounted capacity exploration) {trail : Trail} {waiting : List Trail}
    (ends : ((trail :: waiting).map openEnd ++ exploration.records.map PassRecord.finalEnd).Perm
      exploration.tree.onTrue.ends)
    (opened : exploration.tree.at? trail.answers = some .unresolved)
    (recorded : exploration.tree.onTrue.trail trail.answers = trail) {atoms : List Atom}
    (consecutive : Consecutive trail.length atoms) (fits : trail.length + atoms.length ≤ capacity) (result : Bool) :
    Accounted capacity (exploration.grow capacity trail waiting atoms result) where
  untouched := accounted.untouched
  numbered := by
    refine accounted.numbered.put opened ?_
    rw [Nat.zero_add, Trail.answers_length]
    exact consecutive.numbered fits result
  accounted := by
    refine ⟨_, exploration.grow_queue trail waiting consecutive result, ?_⟩
    obtain ⟨before, after, split, grown⟩ := Branch.ends_put opened
    rw [recorded] at split grown
    -- the ends that stay are those of before without the one that has grown
    have stay : (waiting.map openEnd ++ exploration.records.map PassRecord.finalEnd).Perm (before ++ after) := by
      rw [split] at ends
      exact (ends.trans List.perm_middle).cons_inv
    have new : ((branchings atoms).map (trail ++ ·)).map openEnd ++ [(trail ++ falseTrail atoms, some result)] =
        (chain atoms result).ends.map (End.below trail) := by
      rw [ends_chain, List.map_append, List.map_map, List.map_map]
      rfl
    have newEnds : (exploration.grow capacity trail waiting atoms result).tree.onTrue.ends = _ :=
      grown (chain atoms result)
    rw [exploration.grow_records, newEnds, ← new, List.map_append, List.map_append]
    refine (Branch.interleave_perm _ _ _ _).trans ((stay.append_right _).trans ?_)
    rw [List.append_assoc, List.append_assoc]
    exact .append_left before List.perm_append_comm

end Accounted

variable (step) (start : List PassRecord → σ) (capacity : Nat)

/-- What holds of an exploration of a rule between two passes. -/
structure Sound (exploration : Exploration) : Prop extends Accounted capacity exploration where
  runs : ∀ count record, exploration.records[count]? = some record →
    Runs step (start (exploration.records.take count)) record.transcript record.result

theorem Sound.begun : Sound step start capacity {} :=
  ⟨.begun capacity, by simp⟩

inductive Advance (exploration : Exploration) (trail : Trail) (waiting : List Trail) : Exploration → Prop
  | grows {last : σ} {atoms : List Atom} {result : Bool}
      (reads : Reads step (start exploration.records) trail last) (grows : Grows step trail.length last atoms result)
      (fits : trail.length + atoms.length ≤ capacity) :
      Advance exploration trail waiting (exploration.grow capacity trail waiting atoms result)
  | halts {fault : Fault}
      (halts : Halts step capacity (start exploration.records) exploration.tree trail.answers fault) :
      Advance exploration trail waiting { exploration with fault := some fault }

variable {step start capacity} {exploration : Exploration}

theorem advance_ok {assignment : Nat} {queue : List Nat} {tree : Tree} {pass : Pass} {result : Bool}
    (next : exploration.queue = assignment :: queue)
    (ran : runPass step capacity (start exploration.records) exploration.tree { assignment, capacity } =
      .ok (tree, pass, result)) :
    advance step start capacity exploration = exploration.record queue assignment tree pass result := by
  simp only [advance, next, ran]

theorem advance_error {assignment : Nat} {queue : List Nat} {fault : Fault}
    (next : exploration.queue = assignment :: queue)
    (ran : runPass step capacity (start exploration.records) exploration.tree { assignment, capacity } =
      .error fault) :
    advance step start capacity exploration = { exploration with fault := some fault } := by
  simp only [advance, next, ran]

/-- The first assignment in the queue leads to an open end, and its pass grows a chain there or halts. -/
theorem Sound.advance_cases (sound : Sound step start capacity exploration) (busy : exploration.isBusy = true) :
    ∃ trail waiting, exploration.queue = (trail :: waiting).map Trail.assignment ∧
      ((trail :: waiting).map openEnd ++ exploration.records.map PassRecord.finalEnd).Perm
        exploration.tree.onTrue.ends ∧
      exploration.tree.at? trail.answers = some .unresolved ∧
      exploration.tree.onTrue.trail trail.answers = trail ∧
      Advance step start capacity exploration trail waiting (advance step start capacity exploration) := by
  obtain ⟨waiting, queue, ends⟩ := sound.accounted
  cases waiting with
  | nil => simp [Exploration.isBusy, queue] at busy
  | cons trail waiting =>
      have member : openEnd trail ∈ exploration.tree.onTrue.ends :=
        ends.mem_iff.mp (by simp)
      obtain ⟨opened, recorded⟩ := Branch.mem_ends_iff.mp member
      have room := sound.numbered.length_le (Nat.zero_le capacity) opened
      rw [Nat.zero_add] at room
      refine ⟨trail, waiting, queue, ends, opened, recorded, ?_⟩
      have outcome := runPass_outcome step opened room (start exploration.records)
      generalize ran : runPass step capacity (start exploration.records) exploration.tree
        (freshPass trail.answers capacity) = ended at outcome
      cases outcome with
      | completes reads grows fits =>
          rw [advance_ok queue ran]
          rw [recorded] at reads ⊢
          rw [Trail.answers_length] at grows fits
          exact .grows reads grows fits
      | halts halts =>
          rw [advance_error queue ran]
          exact .halts halts

theorem Sound.grow (sound : Sound step start capacity exploration) {trail : Trail} {waiting : List Trail}
    (ends : ((trail :: waiting).map openEnd ++ exploration.records.map PassRecord.finalEnd).Perm
      exploration.tree.onTrue.ends)
    (opened : exploration.tree.at? trail.answers = some .unresolved)
    (recorded : exploration.tree.onTrue.trail trail.answers = trail)
    {last : σ} {atoms : List Atom} {result : Bool}
    (reads : Reads step (start exploration.records) trail last)
    (grows : Grows step trail.length last atoms result) (fits : trail.length + atoms.length ≤ capacity) :
    Sound step start capacity (exploration.grow capacity trail waiting atoms result) where
  toAccounted := sound.toAccounted.grow ends opened recorded grows.consecutive fits result
  runs := by
    intro count record found
    rw [exploration.grow_records] at found ⊢
    rcases Nat.lt_trichotomy count exploration.records.length with earlier | last | later
    · rw [List.getElem?_append_left earlier] at found
      rw [List.take_append_of_le_length (Nat.le_of_lt earlier)]
      exact sound.runs count record found
    · rw [last, List.getElem?_append_right (Nat.le_refl _), Nat.sub_self, List.getElem?_cons_zero,
        Option.some.injEq] at found
      obtain ⟨final, value, more, ends, truthy⟩ := grows.runs
      rw [last, List.take_left, ← found]
      exact ⟨final, value, reads.append more, ends, truthy⟩
    · rw [List.getElem?_eq_none (by rw [List.length_append, List.length_singleton]; omega)] at found
      cases found

theorem Sound.advance (sound : Sound step start capacity exploration) (busy : exploration.isBusy = true) :
    Sound step start capacity (advance step start capacity exploration) := by
  obtain ⟨trail, waiting, _, ends, opened, recorded, advanced⟩ := sound.advance_cases busy
  generalize Decision.advance step start capacity exploration = after at advanced ⊢
  cases advanced with
  | grows reads grows fits => exact sound.grow ends opened recorded reads grows fits
  | halts halts => exact ⟨⟨sound.untouched, sound.numbered, sound.accounted⟩, sound.runs⟩

theorem Sound.advance_length (sound : Sound step start capacity exploration) (busy : exploration.isBusy = true)
    (still : (Decision.advance step start capacity exploration).isBusy = true) :
    (Decision.advance step start capacity exploration).records.length = exploration.records.length + 1 := by
  obtain ⟨trail, waiting, _, _, _, _, advanced⟩ := sound.advance_cases busy
  generalize Decision.advance step start capacity exploration = after at advanced still ⊢
  cases advanced with
  | grows reads grows fits => rw [exploration.grow_records, List.length_append, List.length_singleton]
  | halts halts => simp [Exploration.isBusy] at still

variable (step start capacity) in
/-- What an exploration comes to, pass after pass. -/
inductive Reachable : Exploration → Prop
  | begun : Reachable {}
  | advanced {exploration : Exploration} (reachable : Reachable exploration) (busy : exploration.isBusy = true) :
      Reachable (advance step start capacity exploration)

theorem Reachable.sound (reachable : Reachable step start capacity exploration) :
    Sound step start capacity exploration := by
  induction reachable with
  | begun => exact .begun step start capacity
  | advanced _ busy ih => exact ih.advance busy

variable (step start capacity)

def afterPasses (count : Nat) : Exploration :=
  Nat.repeat (stepIfBusy Exploration.isBusy (advance step start capacity)) count {}

theorem afterPasses_succ (count : Nat) :
    afterPasses step start capacity (count + 1) =
      stepIfBusy Exploration.isBusy (advance step start capacity) (afterPasses step start capacity count) := rfl

theorem afterPasses_reachable (count : Nat) :
    Reachable step start capacity (afterPasses step start capacity count) ∧
      ((afterPasses step start capacity count).isBusy = true →
        (afterPasses step start capacity count).records.length = count) := by
  induction count with
  | zero => exact ⟨.begun, fun _ => rfl⟩
  | succ count ih =>
      obtain ⟨reachable, counted⟩ := ih
      rw [afterPasses_succ, stepIfBusy]
      cases busy : (afterPasses step start capacity count).isBusy with
      | false =>
          rw [if_neg Bool.false_ne_true]
          exact ⟨reachable, fun still => by rw [busy] at still; contradiction⟩
      | true =>
          rw [if_pos rfl]
          refine ⟨.advanced reachable busy, fun still => ?_⟩
          rw [reachable.sound.advance_length busy still, counted busy]

theorem exploreFrom_eq_afterPasses :
    exploreFrom step start capacity = afterPasses step start capacity (2 ^ (capacity + 1) - 1) := by
  rw [exploreFrom, settle_eq_repeat, Nat.zero_add]
  rfl

theorem exploreFrom_reachable : Reachable step start capacity (exploreFrom step start capacity) := by
  rw [exploreFrom_eq_afterPasses]
  exact (afterPasses_reachable step start capacity _).1

/-- The passes that an exploration may take are as many as there are combinations of answers. -/
theorem pow_le_total (capacity : Nat) : 2 ^ capacity ≤ 2 ^ (capacity + 1) - 1 := by
  have positive := Nat.one_le_two_pow (n := capacity)
  rw [Nat.pow_succ]
  omega

/-- The number of passes is bounded by the number of paths, so an exploration comes to its end. -/
theorem exploreFrom_done : (exploreFrom step start capacity).isBusy = false := by
  rw [exploreFrom_eq_afterPasses]
  obtain ⟨reachable, counted⟩ := afterPasses_reachable step start capacity (2 ^ (capacity + 1) - 1)
  generalize afterPasses step start capacity (2 ^ (capacity + 1) - 1) = ended at reachable counted ⊢
  cases busy : ended.isBusy with
  | false => rfl
  | true =>
      cases next : ended.queue with
      | nil => simp [Exploration.isBusy, next] at busy
      | cons assignment queue =>
          have bound := reachable.sound.records_lt next
          have enough := pow_le_total capacity
          rw [counted busy] at bound
          omega

variable {step start capacity}

theorem Reachable.afterPasses (reachable : Reachable step start capacity exploration) :
    ∃ count, afterPasses step start capacity count = exploration := by
  induction reachable with
  | begun => exact ⟨0, rfl⟩
  | advanced _ busy ih =>
      obtain ⟨count, same⟩ := ih
      refine ⟨count + 1, ?_⟩
      rw [afterPasses_succ, same, stepIfBusy, if_pos busy]

/-- Where there is no work left, the exploration has ended. -/
theorem Reachable.exploreFrom_eq (reachable : Reachable step start capacity exploration)
    (done : exploration.isBusy = false) : exploreFrom step start capacity = exploration := by
  obtain ⟨count, rfl⟩ := reachable.afterPasses
  have ended := exploreFrom_done step start capacity
  rw [exploreFrom_eq_afterPasses] at ended ⊢
  generalize 2 ^ (capacity + 1) - 1 = total at ended ⊢
  have both : Decision.afterPasses step start capacity (total + count) =
      Decision.afterPasses step start capacity (count + total) := by rw [Nat.add_comm]
  simp only [Decision.afterPasses] at ended done both ⊢
  rw [repeat_add, repeat_stepIfBusy done, repeat_add, repeat_stepIfBusy ended] at both
  exact both.symm

end Extension.Decision
