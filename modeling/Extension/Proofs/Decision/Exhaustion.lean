import Extension.Proofs.Decision.Exploration
import Extension.Rule.Basic

namespace Extension.Decision

/-! What a finished exploration has found.

With nothing left in the queue every end of the tree is a result that one pass has found.  A pass that does
something else than an earlier one at the same position never lets the exploration come so far.
-/

def PassRecord.answers (record : PassRecord) : List Bool :=
  Trail.answers record.transcript

variable {σ : Type} (step : σ → Move σ) (start : List PassRecord → σ) (capacity : Nat)

/-- The tree is resolved, and the passes are in one-to-one correspondence with its leaves. -/
structure Exhausts (records : List PassRecord) (tree : Tree) : Prop where
  resolved : tree.isResolved = true
  /-- Each pass is a run of the rule, with the tests, the answers and the result of its record. -/
  ran : ∀ count record, records[count]? = some record →
    Runs step (start (records.take count)) record.transcript record.result
  /-- The tests of a pass are those on the path that its answers lead along. -/
  walked : ∀ record ∈ records, tree.onTrue.trail record.answers = record.transcript
  /-- The leaves are the results of the passes, each at the end of the answers of its pass. -/
  leaf : ∀ path value, tree.at? path = some (.result value) ↔
    ∃ record ∈ records, record.answers = path ∧ record.result = value
  once : (records.map fun record => record.answers).Nodup
  results : (records.map PassRecord.result).Perm tree.leaves
  passes : records.length = tree.nodes.length + 1
  leaves : records.length = tree.leaves.length

/-- In the next pass the rule makes another test, or returns, where an earlier pass made a test. -/
inductive Contradicts (exploration : Exploration) : Prop
  | intro {assignment : Nat} {queue : List Nat} {record : PassRecord} {earlier later asked : Trail}
      {text : String} {answer : Bool} {last : σ} (next : exploration.queue = assignment :: queue)
      (member : record ∈ exploration.records) (recorded : record.transcript = earlier ++ (text, answer) :: later)
      (reads : Reads step (start exploration.records) asked last)
      (answered : forced assignment 0 asked.length = asked.answers) (position : asked.answers = earlier.answers)
      (other : (∃ test next, step last = .read test next ∧ test.text ≠ text) ∨ ∃ value, step last = .finish value)

variable {step start capacity} {exploration : Exploration}

theorem Sound.recorded (sound : Sound step start capacity exploration) {record : PassRecord}
    (member : record ∈ exploration.records) :
    exploration.tree.at? record.answers = some (.result record.result) ∧
      exploration.tree.onTrue.trail record.answers = record.transcript := by
  obtain ⟨waiting, _, ends⟩ := sound.accounted
  have found : record.finalEnd ∈ exploration.tree.onTrue.ends :=
    ends.mem_iff.mp (List.mem_append_right _ (List.mem_map_of_mem member))
  exact Branch.mem_ends_iff.mp found

theorem Sound.exhausts (sound : Sound step start capacity exploration) (empty : exploration.queue = []) :
    Exhausts step start exploration.records exploration.tree := by
  have ends := sound.finalEnds empty
  have length : exploration.records.length = exploration.tree.onTrue.size + 1 := by
    rw [← Branch.ends_length, ← ends.length_eq, List.length_map]
  have results := sound.results_perm empty
  refine {
    resolved := ?_
    ran := sound.runs
    walked := fun record member => (sound.recorded member).2
    leaf := ?_
    once := ?_
    results
    passes := ?_
    leaves := ?_ }
  · rw [Tree.isResolved_iff sound.untouched, Branch.complete_iff]
    intro found member
    obtain ⟨record, _, rfl⟩ := List.mem_map.mp (ends.mem_iff.mpr member)
    exact Option.some_ne_none _
  · intro path value
    constructor
    · intro reached
      have answers := Branch.trail_answers reached
      have member : (exploration.tree.onTrue.trail path, some value) ∈ exploration.tree.onTrue.ends :=
        Branch.mem_ends_iff.mpr ⟨by rw [answers]; exact reached, by rw [answers]⟩
      obtain ⟨record, recorded, same⟩ := List.mem_map.mp (ends.mem_iff.mpr member)
      obtain ⟨transcript, result⟩ := Prod.mk.inj same
      exact ⟨record, recorded, by rw [PassRecord.answers, transcript, answers], Option.some.inj result⟩
    · rintro ⟨record, member, rfl, rfl⟩
      exact (sound.recorded member).1
  · have distinct := exploration.tree.onTrue.ends_distinct
    rw [← (ends.map _).nodup_iff, List.map_map] at distinct
    exact distinct
  · rw [length, Tree.nodes_length, Tree.size, sound.untouched]
    rfl
  · rw [← results.length_eq, List.length_map]

theorem Branch.node_of_trail {branch found : Branch} {path : List Bool} (reached : branch.follow path = some found)
    {earlier later : Trail} {text : String} {answer : Bool}
    (recorded : branch.trail path = earlier ++ (text, answer) :: later) :
    ∃ atom onTrue onFalse, branch.follow earlier.answers = some (.node atom onTrue onFalse) ∧ atom.text = text := by
  induction earlier generalizing branch path with
  | nil =>
      cases path with
      | nil => cases branch <;> cases recorded
      | cons given path =>
          obtain ⟨atom, onTrue, onFalse, rfl, _⟩ := node_of_follow_cons reached
          rw [trail_node] at recorded
          have met := (List.cons.inj recorded).1
          exact ⟨atom, onTrue, onFalse, rfl, (Prod.mk.inj met).1⟩
  | cons met earlier ih =>
      cases path with
      | nil => cases branch <;> cases recorded
      | cons given path =>
          obtain ⟨atom, onTrue, onFalse, rfl, inside⟩ := node_of_follow_cons reached
          rw [trail_node, List.cons_append] at recorded
          obtain ⟨rfl, rest⟩ := List.cons.inj recorded
          obtain ⟨deeper, deeperTrue, deeperFalse, there, same⟩ := ih inside rest
          exact ⟨deeper, deeperTrue, deeperFalse, by rw [Trail.answers_cons, follow_node, there], same⟩

/-- Answers that an assignment gives, and that lead to a node, are part of its way to an open end. -/
theorem Branch.before_open {branch : Branch} {path asked : List Bool} {atom : Atom} {onTrue onFalse : Branch}
    {assignment : Int} (opened : branch.follow path = some .unresolved)
    (leads : forced assignment 0 path.length = path) (answered : forced assignment 0 asked.length = asked)
    (node : branch.follow asked = some (.node atom onTrue onFalse)) : ∃ rest, path = asked ++ rest := by
  rcases Nat.le_total asked.length path.length with shorter | longer
  · obtain ⟨more, length⟩ := Nat.le.dest shorter
    rw [← length, forced_append, answered] at leads
    exact ⟨_, leads.symm⟩
  · obtain ⟨more, length⟩ := Nat.le.dest longer
    rw [← length, forced_append, leads] at answered
    rw [← answered, follow_append, opened] at node
    cases rest : forced assignment (0 + path.length) more <;> rw [rest] at node <;> cases node

/-- A rule that does something else at a node stops there, or has stopped before. -/
theorem stopsOn_of_deviates {state last : σ} {asked : Trail} (reads : Reads step state asked last)
    {branch onTrue onFalse : Branch} {atom : Atom} {fault : Fault}
    (node : branch.follow asked.answers = some (.node atom onTrue onFalse)) (deviates : Deviates step last atom fault)
    (rest : List Bool) :
    ∃ fault, StopsOn step branch state (asked.answers ++ rest) fault ∧ fault.isNonDeterminism = true := by
  induction reads generalizing branch with
  | nil =>
      cases node
      exact ⟨fault, .intro [] rest rfl .nil rfl (.inl deviates), deviates.isNonDeterminism⟩
  | @cons state last test next answer asked asks tail ih =>
      obtain ⟨met, metTrue, metFalse, rfl, inside⟩ := Branch.node_of_follow_cons node
      by_cases same : test.text = met.text
      · obtain ⟨early, stops, kind⟩ := ih inside deviates
        exact ⟨early, stops.cons asks same, kind⟩
      · have other := Deviates.reads asks same
        exact ⟨_, .intro [] _ rfl .nil rfl (.inl other), other.isNonDeterminism⟩

/-- Such a pass ends the whole exploration. -/
theorem Reachable.contradicts (reachable : Reachable step start capacity exploration)
    (busy : exploration.isBusy = true) (contradicts : Contradicts step start exploration) :
    ∃ fault, (exploreFrom step start capacity).outcome = .error fault ∧ fault.isNonDeterminism = true := by
  obtain @⟨assignment, queue, record, earlier, later, asked, text, answer, last, next, member, recorded, reads,
    answered, position, other⟩ := contradicts
  obtain ⟨trail, waiting, queued, _, opened, _, _⟩ := reachable.sound.advance_cases busy
  obtain ⟨rfl, _⟩ := List.cons.inj (next.symm.trans queued)
  obtain ⟨reached, walked⟩ := reachable.sound.recorded member
  obtain ⟨atom, onTrue, onFalse, node, rfl⟩ := Branch.node_of_trail reached (walked.trans recorded)
  rw [← position] at node
  obtain ⟨rest, path⟩ := Branch.before_open opened (freshPass_answered trail.answers capacity)
    (by rw [Trail.answers_length]; exact answered) node
  have deviates : ∃ fault, Deviates step last atom fault := by
    rcases other with ⟨test, next, asks, differs⟩ | ⟨value, ends⟩
    · exact ⟨_, .reads asks differs⟩
    · exact ⟨_, .returns ends⟩
  obtain ⟨_, deviates⟩ := deviates
  obtain ⟨fault, stops, kind⟩ := stopsOn_of_deviates reads node deviates rest
  rw [← path] at stops
  have room := reachable.sound.numbered.length_le (Nat.zero_le capacity) opened
  rw [Nat.zero_add] at room
  have failed : advance step start capacity exploration = { exploration with fault := some fault } :=
    advance_error next (runPass_stopped room stops)
  have ended := (Reachable.advanced reachable busy).exploreFrom_eq (by rw [failed]; rfl)
  exact ⟨fault, by rw [ended, failed]; rfl, kind⟩

theorem exploreFrom_ok {tree : Tree} (ok : (exploreFrom step start capacity).outcome = .ok tree) :
    (exploreFrom step start capacity).tree = tree ∧ (exploreFrom step start capacity).queue = [] := by
  have done := exploreFrom_done step start capacity
  generalize exploreFrom step start capacity = ended at ok done ⊢
  cases fault : ended.fault with
  | some fault => simp [Exploration.outcome, fault] at ok
  | none =>
      simp [Exploration.outcome, fault] at ok
      simp [Exploration.isBusy, fault] at done
      exact ⟨ok, done⟩

variable (step start capacity) in
/-- Exploration is exhaustive and never repeats itself, whatever the rule does. -/
theorem exploration_exhaustive :
    (∀ tree, (exploreFrom step start capacity).outcome = .ok tree →
      Exhausts step start (exploreFrom step start capacity).records tree) ∧
    (∀ exploration, Reachable step start capacity exploration → exploration.isBusy = true →
      Contradicts step start exploration →
      ∃ fault, (exploreFrom step start capacity).outcome = .error fault ∧ fault.isNonDeterminism = true) := by
  constructor
  · intro tree ok
    obtain ⟨same, empty⟩ := exploreFrom_ok ok
    rw [← same]
    exact (exploreFrom_reachable step start capacity).sound.exhausts empty
  · intro exploration reachable busy contradicts
    exact reachable.contradicts busy contradicts

def keyRule (name : String) : Rule :=
  .test (.ok (.text name)) (.ok .truthy)

/-- A rule that is called once for each pass, for the first time in the first one. -/
def callAfter (rule : Rule) (records : List PassRecord) : Script :=
  rule.start (records.length + 1)

/-- A disjunction is exhausted; a rule that tests one key in odd calls and another in even ones is found out. -/
theorem disjunction_exhausted_alternation_refused :
    Exhausts Script.move (callAfter (.any [keyRule "a", keyRule "b"]))
      (exploreFrom Script.move (callAfter (.any [keyRule "a", keyRule "b"])) 2).records
      { onTrue := .node ⟨"a", 1, "a"⟩ (.result true) (.node ⟨"b", 2, "b"⟩ (.result true) (.result false)) } ∧
    ∃ fault, (exploreFrom Script.move (callAfter (.alternate (keyRule "a") (keyRule "b"))) 2).outcome =
      .error fault ∧ fault.isNonDeterminism = true := by
  constructor
  · exact (exploration_exhaustive Script.move _ 2).1 _ rfl
  · have first : Reachable Script.move (callAfter (.alternate (keyRule "a") (keyRule "b"))) 2 {} := .begun
    refine (exploration_exhaustive Script.move _ 2).2 _ (first.advanced rfl) rfl ?_
    have recorded : [("a", false)] = [] ++ ("a", false) :: [] := rfl
    exact .intro rfl (List.mem_cons_self ..) recorded .nil rfl rfl (.inl ⟨⟨"b", "b"⟩, _, rfl, by decide⟩)

end Extension.Decision
