import Extension.Proofs.Decision.Consistency
import Extension.Proofs.Session.Capacity

namespace Extension

open Decision

/-! Analyzing an expression of a session.

The report is made of the tree with which the exploration of the expression ends, and this exploration is one of those
that have been described: it is between two passes, and no pass is waiting.  For the capacity that the report names, the
settings are loaded once more after the exploration, so that it is another one if the rules have changed the
environment.
-/

namespace Session

variable {σ : Type}

/-- The exploration is that of the call from outside, and has run its last pass. -/
structure Finishes (step : σ → Stretch σ) (session : Session σ) (name : String) (driven : Session σ) (frame : Frame) :
    Prop where
  evaluates : Evaluates step (asked session name) ⟨driven, [name], [], .drive⟩
  innermost : driven.frames = [frame]
  empty : frame.exploration.queue = []
  explored : session.explore step name = (.ok frame.exploration.tree,
    (driven.countPasses name frame.exploration.records.length).pop.unlock name)

/-- The report on an exploration that has been made with some settings, after which others have been loaded. -/
structure Reports (step : σ → Stretch σ) (expression : Expression σ) (session : Session σ) (name : String)
    (frame : Frame) (explored loaded : Settings) (report : Report) : Prop where
  before : expression.currentSettings session.environment = .ok explored
  after : expression.currentSettings (session.explore step name).2.environment = .ok loaded
  capacity : frame.capacity = explored.maxAtoms
  named : report.maxAtoms = loaded.maxAtoms
  consistent : Consistent frame.exploration explored.maxAtoms report
  /-- No path is too long for the settings that are loaded, if they have not changed. -/
  within : expression.settings.isSome = true ∨ (session.explore step name).2.environment = session.environment →
    report.maxDepth ≤ report.maxAtoms

section Explorations

variable {step : σ → Stretch σ} {session : Session σ} {name : String}

/-- A call from outside that has a tree has found its expression, and unlocked. -/
theorem explore_ok {tree : Tree} {after : Session σ} (explored : session.explore step name = (.ok tree, after)) :
    ∃ depth member ended, session.members.length = depth + 1 ∧ session.member? name = some member ∧
      member.locked = false ∧
      exploreLocked step (fun name session =>
        let (tree, session) := exploreNested step depth name session
        (tree.map Tree.clause, session)) name member.expression (session.lock name) = (.ok tree, ended) ∧
      after = ended.unlock name := by
  rw [explore] at explored
  cases count : session.members.length with
  | zero =>
      rw [count, exploreNested] at explored
      split at explored <;> cases explored
  | succ depth =>
      rw [count, exploreNested, exploreWith] at explored
      cases found : session.member? name with
      | none =>
          simp only [found] at explored
          cases explored
      | some member =>
          cases locked : member.locked with
          | true =>
              simp only [found, locked, if_true] at explored
              cases explored
          | false =>
              simp only [found, locked, Bool.false_eq_true, if_false] at explored
              obtain ⟨outcome, same⟩ := Prod.mk.inj explored
              exact ⟨depth, member, _, rfl, rfl, locked, Prod.ext outcome rfl, same.symm⟩

/-- An exploration that has a tree has run its last pass, within the capacity of the settings that it found. -/
theorem explore_finishes (sane : Sane (idle session)) {tree : Tree} {after : Session σ}
    (explored : session.explore step name = (.ok tree, after)) :
    ∃ driven frame member settings, Finishes step session name driven frame ∧ frame.exploration.tree = tree ∧
      session.member? name = some member ∧ member.expression.currentSettings session.environment = .ok settings ∧
      frame.capacity = settings.maxAtoms := by
  obtain ⟨depth, member, ended, count, found, unlocked, ran, rfl⟩ := explore_ok explored
  have called : Step (idle session) ⟨session, [], .call name⟩ := .ask name
  have entered : Step ⟨session, [], .call name⟩ ⟨session.lock name, [name], .load⟩ := .enter found unlocked
  have here := called.sane sane
  have room : (session.lock name).members.length ≤ depth + (0 + 1) := by
    rw [Steps.members_length (.single entered), count]
  have compiles := Compiles.of_evaluates (exploreNested_evaluates step depth)
  obtain ⟨settings, driven, frame, outer, current, reached, innermost, empty, limit, rfl, rfl⟩ :=
    exploreLocked_ok [] compiles (member?_lock found) (entered.sane here) room ran
  have evaluates : Evaluates step (asked session name) ⟨driven, [name], [], .drive⟩ :=
    .head (.enter found unlocked) reached
  have single : outer = [] := by
    have bound := (Reaches.sane evaluates here).framed.length_le
    simp only [Execution.moment, innermost, List.length_cons, List.length_nil] at bound
    exact List.eq_nil_of_length_eq_zero (by omega)
  subst single
  rw [lock, updateMember_environment] at current
  exact ⟨driven, frame, member, settings, ⟨evaluates, innermost, empty, explored⟩, rfl, found, current, limit⟩

theorem Sane.passes?_finished {driven : Session σ} (sane : Sane ⟨driven, [name], .drive⟩) (count : Nat) :
    ((driven.countPasses name count).pop.unlock name).passes? name = some count := by
  obtain ⟨passes, known⟩ := sane.passes?_isSome (List.mem_singleton_self name)
  rw [passes?_unlock]
  change (driven.countPasses name count).passes? name = _
  rw [passes?_countPasses, if_pos rfl, show driven.passes? name = _ from known]
  rfl

/-- A report is made for the settings that its expression has after the exploration. -/
theorem analyze_ok {report : Report} (analyzed : (session.analyze step name).1 = .ok (some report)) :
    ∃ tree member settings, (session.explore step name).1 = .ok tree ∧
      (session.explore step name).2.member? name = some member ∧
      member.expression.currentSettings (session.explore step name).2.environment = .ok settings ∧
      tree.report? settings.maxAtoms member.expression.passes = some report := by
  rw [analyze] at analyzed
  rcases explored : session.explore step name with ⟨fault | tree, after⟩
  · rw [explored] at analyzed
    cases analyzed
  · simp only [explored] at analyzed
    cases found : after.member? name with
    | none =>
        simp only [found] at analyzed
        cases analyzed
    | some member =>
        simp only [found] at analyzed
        cases current : member.expression.currentSettings after.environment with
        | error fault =>
            rw [current] at analyzed
            cases analyzed
        | ok settings =>
            rw [current] at analyzed
            exact ⟨tree, member, settings, rfl, rfl, current, Except.ok.inj analyzed⟩

/-- A report is made if the capacity that is loaded after the exploration has a mark. -/
theorem analyze_of_mark {tree : Tree} {maxAtoms passes : Nat} {mark : Number.Binary64}
    (explored : (session.explore step name).1 = .ok tree)
    (settled : ((session.explore step name).2.member? name).map (fun member =>
      ((member.expression.currentSettings (session.explore step name).2.environment).map Settings.maxAtoms,
        member.expression.passes)) = some (.ok maxAtoms, passes))
    (close : capacityMark? maxAtoms = some mark) :
    ∃ report, (session.analyze step name).1 = .ok (some report) ∧ report.maxAtoms = maxAtoms ∧
      report.maxDepth = tree.maxDepth := by
  rw [analyze]
  generalize session.explore step name = reached at explored settled
  obtain ⟨_, after⟩ := reached
  obtain rfl := explored
  obtain ⟨member, found, same⟩ := Option.map_eq_some_iff.mp settled
  obtain ⟨loads, rfl⟩ := Prod.mk.inj same
  obtain ⟨report, made, describes⟩ := tree.report?_of_mark close member.expression.passes
  refine ⟨report, ?_, describes.depth.2, describes.depth.1⟩
  simp only [found]
  cases current : member.expression.currentSettings after.environment with
  | error fault =>
      rw [current] at loads
      cases loads
  | ok settings =>
      rw [current] at loads
      obtain rfl := Except.ok.inj loads
      exact congrArg Except.ok made

variable {environment : Environment} {expressions : Entries (Expression σ)}

theorem Sane.consistent {calls : List String} {frame : Frame} {outer : List Frame} {maxAtoms : Nat} {report : Report}
    (sane : Sane ⟨session, calls, .drive⟩) (innermost : session.frames = frame :: outer)
    (empty : frame.exploration.queue = [])
    (made : frame.exploration.tree.report? maxAtoms frame.exploration.records.length = some report) :
    Consistent frame.exploration frame.capacity report ∧ report.maxAtoms = maxAtoms := by
  cases sane.framed with
  | drive first _ between _ =>
      obtain ⟨rfl, _⟩ := List.cons.inj (innermost.symm.trans first)
      exact between.accounted.consistent empty made

/-- What is analyzed is an exploration that has run its last pass. -/
theorem analyze_reports (steps : Steps (idle (opened environment expressions)) (idle session)) {report : Report}
    (analyzed : (session.analyze step name).1 = .ok (some report)) :
    ∃ driven frame expression explored loaded, Finishes step session name driven frame ∧
      expressions.lookup name = some expression ∧
      Reports step expression session name frame explored loaded report := by
  obtain ⟨tree, later, loaded, explored, foundLater, after, made⟩ := analyze_ok analyzed
  obtain ⟨driven, frame, member, settings, finishes, rfl, found, before, capacity⟩ :=
    explore_finishes (Steps.sane steps (sane_opened environment expressions)) (Prod.ext explored rfl)
  have sane := (asked_ready steps finishes.evaluates).1
  have ended := (asked_ready steps (explore_evaluates step (Steps.sane steps (sane_opened environment expressions))
    name)).2
  have passes : (session.explore step name).2.passes? name = some frame.exploration.records.length := by
    rw [finishes.explored]
    exact sane.passes?_finished _
  rw [Session.passes?, foundLater] at passes
  rw [show later.expression.passes = _ from Option.some.inj passes] at made
  obtain ⟨consistent, named⟩ := sane.consistent finishes.innermost finishes.empty made
  -- the expression is the one of the session, before and after
  obtain ⟨expression, listed, fixed⟩ := Ready.settings (.of_steps steps) found session.environment
  obtain ⟨again, relisted, refixed⟩ := ended.settings foundLater (session.explore step name).2.environment
  obtain rfl := Option.some.inj (listed.symm.trans relisted)
  rw [fixed] at before
  rw [refixed] at after
  refine ⟨driven, frame, expression, settings, loaded, finishes, listed, before, after, capacity, named,
    capacity ▸ consistent, fun unchanged => ?_⟩
  have kept : settings = loaded := by
    rcases unchanged with own | same
    · obtain ⟨set, given⟩ := Option.isSome_iff_exists.mp own
      rw [Expression.currentSettings, given] at before after
      exact Except.ok.inj (before.symm.trans after)
    · rw [same] at after
      exact Except.ok.inj (before.symm.trans after)
  rw [named, ← kept, ← capacity]
  exact consistent.depth.2

/-- Whatever the rules of a session do, a report on an exploration without waiting passes is consistent with it, for
the capacity that it was made within, and so is the report that analyzing an expression returns.  The capacity that it
names is the one that is loaded after the exploration. -/
theorem analyze_consistent (step : σ → Stretch σ) (environment : Environment) (expressions : Entries (Expression σ)) :
    (∀ session calls frame outer maxAtoms report,
      Steps (idle (opened environment expressions)) ⟨session, calls, .drive⟩ →
      session.frames = frame :: outer → frame.exploration.queue = [] →
      frame.exploration.tree.report? maxAtoms frame.exploration.records.length = some report →
      Consistent frame.exploration frame.capacity report ∧ report.maxAtoms = maxAtoms) ∧
    ∀ session name report, Steps (idle (opened environment expressions)) (idle session) →
      (session.analyze step name).1 = .ok (some report) →
      ∃ driven frame expression explored loaded, Finishes step session name driven frame ∧
        expressions.lookup name = some expression ∧
        Reports step expression session name frame explored loaded report := by
  refine ⟨fun session calls frame outer maxAtoms report steps => ?_, fun session name report steps => ?_⟩
  · exact (Steps.sane steps (sane_opened environment expressions)).consistent
  · exact analyze_reports steps

end Explorations

def threeAtoms : Settings :=
  { maxAtoms := 3, positive := Nat.succ_pos 2 }

def tested (key : String) : Rule :=
  .test (.ok (.text key)) (.ok .truthy)

/-- One of its tests is the second on some paths and the third on others. -/
def uneven : Entries (Expression Script) :=
  [("a", .ofRule "a" (.choose (tested "k") (tested "j") (.all [tested "l", tested "j"])) (some threeAtoms))]

def unevenTree : Tree where
  onTrue := .node ⟨"k", 1, "k"⟩ (.node ⟨"j", 2, "j"⟩ (.result true) (.result false))
    (.node ⟨"l", 2, "l"⟩ (.node ⟨"j", 3, "j"⟩ (.result true) (.result false)) (.result false))

theorem unevenTree_maxDepth : unevenTree.maxDepth = 3 := by
  have nodes : unevenTree.nodes = [unevenTree.onTrue, unevenTree.onTrue.onTrue, unevenTree.onTrue.onFalse,
      unevenTree.onTrue.onFalse.onTrue] := by
    simp [Tree.nodes, unevenTree, walk, Branch.children, Branch.here, Branch.onTrue, Branch.onFalse]
  rw [Tree.maxDepth, Tree.atoms, nodes]
  rfl

theorem uneven_analyzed : ∃ report, ((opened [] uneven).analyze Script.stretch "a").1 = .ok (some report) ∧
    report.maxAtoms = 3 ∧ report.maxDepth = 3 := by
  have outcome : ((opened [] uneven).explore Script.stretch "a").1 = .ok unevenTree := by rfl
  have mark : capacityMark? 3 = some (.finite false 5066549580791808 (-51)) := by decide +kernel
  obtain ⟨report, analyzed, atoms, depth⟩ := analyze_of_mark outcome (by rfl) mark
  exact ⟨report, analyzed, atoms, depth.trans unevenTree_maxDepth⟩

/-- It reads two keys, and sets the variable for the capacity to one before. -/
def narrowing : Nat → Stretch Nat
  | 0 => .change (fun environment => Entries.put environment maxAtomsVariable "1")
      (.read ⟨"x", "x"⟩ fun answer => if answer then 1 else 2)
  | 1 => .read ⟨"y", "y"⟩ fun answer => if answer then 3 else 2
  | 2 => .finish (.bool false)
  | _ => .finish (.bool true)

def narrowed : Entries (Expression Nat) :=
  [("a", { name := "a", start := fun _ => 0 })]

def narrowedTree : Tree where
  onTrue := .node ⟨"x", 1, "x"⟩ (.node ⟨"y", 2, "y"⟩ (.result true) (.result false)) (.result false)

theorem narrowedTree_maxDepth : narrowedTree.maxDepth = 2 := by
  have nodes : narrowedTree.nodes = [narrowedTree.onTrue, narrowedTree.onTrue.onTrue] := by
    simp [Tree.nodes, narrowedTree, walk, Branch.children, Branch.here, Branch.onTrue]
  rw [Tree.maxDepth, Tree.atoms, nodes]
  rfl

theorem narrowed_analyzed : ∃ report, ((opened [] narrowed).analyze narrowing "a").1 = .ok (some report) ∧
    report.maxAtoms = 1 ∧ report.maxDepth = 2 := by
  have outcome : ((opened [] narrowed).explore narrowing "a").1 = .ok narrowedTree := by rfl
  have mark : capacityMark? 1 = some (.finite false 6755399441055744 (-53)) := by decide +kernel
  obtain ⟨report, analyzed, atoms, depth⟩ := analyze_of_mark outcome (by rfl) mark
  exact ⟨report, analyzed, atoms, depth.trans narrowedTree_maxDepth⟩

/-- One report names the capacity that the expression was explored with, and the other a smaller one than its longest
path needs, since the rule has changed the environment meanwhile. -/
theorem uneven_and_narrowed_reports :
    (∃ report, ((opened [] uneven).analyze Script.stretch "a").1 = .ok (some report) ∧
      report.maxAtoms = 3 ∧ report.maxDepth = 3 ∧
      ∃ driven frame expression explored loaded, Finishes Script.stretch (opened [] uneven) "a" driven frame ∧
        uneven.lookup "a" = some expression ∧
        Reports Script.stretch expression (opened [] uneven) "a" frame explored loaded report) ∧
    ∃ report, ((opened [] narrowed).analyze narrowing "a").1 = .ok (some report) ∧
      report.maxAtoms = 1 ∧ report.maxDepth = 2 ∧
      ∃ driven frame expression explored loaded, Finishes narrowing (opened [] narrowed) "a" driven frame ∧
        narrowed.lookup "a" = some expression ∧
        Reports narrowing expression (opened [] narrowed) "a" frame explored loaded report := by
  obtain ⟨even, evenly, evenAtoms, evenDepth⟩ := uneven_analyzed
  obtain ⟨narrow, narrowly, narrowAtoms, narrowDepth⟩ := narrowed_analyzed
  exact ⟨⟨even, evenly, evenAtoms, evenDepth,
      (analyze_consistent Script.stretch [] uneven).2 (opened [] uneven) "a" even .refl evenly⟩,
    narrow, narrowly, narrowAtoms, narrowDepth,
    (analyze_consistent narrowing [] narrowed).2 (opened [] narrowed) "a" narrow .refl narrowly⟩

end Session

end Extension
