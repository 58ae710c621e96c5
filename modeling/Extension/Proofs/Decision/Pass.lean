import Extension.Proofs.Decision.Assignment
import Extension.Proofs.Decision.Behaviour

namespace Extension.Decision

/-! What one pass does to a tree.

A pass whose assignment forces the path to an unresolved position goes through two stages.  On the path it is
led past the tests that are recorded there, or it deviates from one of them.  Behind it everything is new and
answered with false, so that the rule grows a chain of tests with its result at the end.
-/

namespace Pass

def along (pass : Pass) (trail : Trail) : Pass :=
  { pass with transcript := pass.transcript ++ trail }

@[simp] theorem along_nil (pass : Pass) : pass.along [] = pass := by
  simp [along]

@[simp] theorem along_along (pass : Pass) (first second : Trail) :
    (pass.along first).along second = pass.along (first ++ second) := by
  simp [along]

@[simp] theorem along_answers (pass : Pass) (trail : Trail) :
    (pass.along trail).answers = pass.answers ++ trail.answers :=
  List.map_append

variable {pass : Pass} {tree : Tree} {test : Test} {atom : Atom} {onTrue onFalse : Branch}

/-- A test that is recorded where the pass stands is answered without any change of the tree. -/
theorem read_recorded (active : pass.active = true)
    (here : tree.at? pass.answers = some (.node atom onTrue onFalse)) (same : test.text = atom.text) :
    pass.read tree test = .ok {
      tree
      pass := pass.along [(atom.text, bit pass.assignment pass.nextDepth)]
      answer := bit pass.assignment pass.nextDepth } := by
  simp [read, active, here, same, advance, along]

theorem read_other (active : pass.active = true)
    (here : tree.at? pass.answers = some (.node atom onTrue onFalse)) (other : test.text ≠ atom.text) :
    pass.read tree test = .error (.readOther test.text atom.text atom.depth) := by
  simp [read, active, here, other.symm]

def newAtom (pass : Pass) (test : Test) : Atom :=
  { text := test.text, depth := pass.nextDepth, key := test.key }

/-- A test at an unresolved position becomes a node of the tree. -/
theorem read_new (active : pass.active = true) (here : tree.at? pass.answers = some .unresolved)
    (room : (pass.nextDepth : Int) ≤ pass.capacity) :
    pass.read tree test = .ok {
      tree := tree.put pass.answers (.node (pass.newAtom test) .unresolved .unresolved)
      pass := { pass.along [(test.text, bit pass.assignment pass.nextDepth)] with
        discovered := pass.discovered ++ [pass.newAtom test] }
      answer := bit pass.assignment pass.nextDepth } := by
  have fits : ¬ pass.capacity < pass.nextDepth := by omega
  simp [read, active, here, fits, advance, along, newAtom]

theorem read_beyond (active : pass.active = true) (here : tree.at? pass.answers = some .unresolved)
    (full : pass.capacity < pass.nextDepth) :
    pass.read tree test = .error (.tooDeep test.text pass.nextDepth pass.capacity) := by
  simp [read, active, here, full]

/-- A test that succeeds takes the pass one test further. -/
theorem read_length {answered : Answered} (read : pass.read tree test = .ok answered) :
    answered.pass.transcript.length = pass.transcript.length + 1 := by
  have further (text : String) : (pass.advance text).1.transcript.length = pass.transcript.length + 1 := by
    simp [advance]
  rw [Pass.read] at read
  split at read
  · simp only at read
    split at read
    · split at read <;> cases read
      exact further _
    · cases read
    · split at read <;> cases read
      exact further _
    · split at read <;> cases read
      exact further _
  · cases read

theorem resolve_new (here : tree.at? pass.answers = some .unresolved) (result : Bool) :
    pass.resolve tree result = .ok (tree.put pass.answers (.result result)) := by
  simp [resolve, here]

theorem resolve_early (here : tree.at? pass.answers = some (.node atom onTrue onFalse)) (result : Bool) :
    pass.resolve tree result = .error (.returnedEarly atom.text atom.depth) := by
  simp [resolve, here]

end Pass

/-- The fault is that a pass did something else than an earlier one at the same position. -/
def Fault.isNonDeterminism : Fault → Bool
  | .readAfterResult _ _ _ | .readOther _ _ _ | .returnedEarly _ _ | .returnedOther _ _ _ _ => true
  | _ => false

namespace Tree

theorem at?_append {tree : Tree} {branch : Branch} {path : List Bool} (here : tree.at? path = some branch)
    (more : List Bool) : tree.at? (path ++ more) = branch.follow more := by
  rw [at?] at here ⊢
  rw [Branch.follow_append, here]
  rfl

theorem at?_put {tree : Tree} {found : Branch} {path : List Bool} (here : tree.at? path = some found)
    (new : Branch) : (tree.put path new).at? path = some new :=
  Branch.follow_put (Option.isSome_iff_exists.mpr ⟨found, here⟩)

theorem put_put {tree : Tree} {found : Branch} {path : List Bool} (here : tree.at? path = some found)
    (new newer : Branch) (more : List Bool) :
    (tree.put path new).put (path ++ more) newer = tree.put path (new.put more newer) := by
  simp only [put, Branch.put_put new newer here]

end Tree

/-- A chain of new tests, all answered with false, with a result at its end. -/
def chain : List Atom → Bool → Branch
  | [], result => .result result
  | atom :: atoms, result => .node atom .unresolved (chain atoms result)

def falseTrail (atoms : List Atom) : Trail :=
  atoms.map fun atom => (atom.text, false)

/-- The depths of the tests follow one another, beginning behind the given one. -/
def Consecutive : Nat → List Atom → Prop
  | _, [] => True
  | depth, atom :: atoms => atom.depth = (depth + 1 : Nat) ∧ Consecutive (depth + 1) atoms

theorem Consecutive.numbered {depth capacity : Nat} {atoms : List Atom} (consecutive : Consecutive depth atoms)
    (fits : depth + atoms.length ≤ capacity) (result : Bool) : (chain atoms result).Numbered capacity depth := by
  induction atoms generalizing depth with
  | nil => exact trivial
  | cons atom atoms ih =>
      rw [List.length_cons] at fits
      exact ⟨consecutive.1, by omega, trivial, ih consecutive.2 (by omega)⟩

variable {σ : Type} (step : σ → Move σ)

/-- With all its tests answered with false, a rule makes the given tests and returns the result. -/
inductive Grows : Nat → σ → List Atom → Bool → Prop
  | finish {depth : Nat} {state : σ} {value : Value} (ends : step state = .finish value) :
      Grows depth state [] value.truthy
  | read {depth : Nat} {state : σ} {test : Test} {next : Bool → σ} {atoms : List Atom} {result : Bool}
      (asks : step state = .read test next) (rest : Grows (depth + 1) (next false) atoms result) :
      Grows depth state ({ text := test.text, depth := (depth + 1 : Nat), key := test.key } :: atoms) result

variable {step}

theorem Grows.runs {depth : Nat} {state : σ} {atoms : List Atom} {result : Bool}
    (grows : Grows step depth state atoms result) : Runs step state (falseTrail atoms) result := by
  induction grows with
  | finish ends => exact ⟨_, _, .nil, ends, rfl⟩
  | read asks _ ih =>
      obtain ⟨last, value, reads, ends, truthy⟩ := ih
      exact ⟨last, value, .cons asks reads, ends, truthy⟩

theorem Grows.consecutive {depth : Nat} {state : σ} {atoms : List Atom} {result : Bool}
    (grows : Grows step depth state atoms result) : Consecutive depth atoms := by
  induction grows with
  | finish ends => exact trivial
  | read asks _ ih => exact ⟨rfl, ih⟩

variable (step) in
/-- Where an earlier pass made one test, a rule makes another or returns.  The fault says which. -/
inductive Deviates (state : σ) (atom : Atom) : Fault → Prop
  | reads {test : Test} {next : Bool → σ} (asks : step state = .read test next) (other : test.text ≠ atom.text) :
      Deviates state atom (.readOther test.text atom.text atom.depth)
  | returns {value : Value} (ends : step state = .finish value) :
      Deviates state atom (.returnedEarly atom.text atom.depth)

theorem Deviates.isNonDeterminism {state : σ} {atom : Atom} {fault : Fault}
    (deviates : Deviates step state atom fault) : fault.isNonDeterminism = true := by
  cases deviates <;> rfl

/-- A pass whose rule makes the tests that are recorded on its path is led along it. -/
theorem runPass_along {state last : σ} {tree : Tree} {pass : Pass} {branch found : Branch} {asked : Trail}
    (active : pass.active = true) (reads : Reads step state asked last)
    (here : tree.at? pass.answers = some branch) (reached : branch.follow asked.answers = some found)
    (recorded : branch.trail asked.answers = asked)
    (answered : forced pass.assignment pass.transcript.length asked.length = asked.answers) (budget : Nat) :
    runPass step (budget + asked.length) state tree pass = runPass step budget last tree (pass.along asked) := by
  induction reads generalizing pass branch with
  | nil => simp
  | @cons state last test next answer rest asks tail ih =>
      obtain ⟨atom, onTrue, onFalse, rfl, inside⟩ := Branch.node_of_follow_cons reached
      rw [Trail.answers_cons, Branch.trail_node, List.cons.injEq, Prod.mk.injEq] at recorded
      obtain ⟨⟨sameText, _⟩, recorded⟩ := recorded
      rw [List.length_cons, forced, Trail.answers_cons, List.cons.injEq] at answered
      obtain ⟨firstAnswer, answered⟩ := answered
      have firstAnswer : bit pass.assignment pass.nextDepth = answer := firstAnswer
      have read := Pass.read_recorded active here sameText.symm
      rw [firstAnswer] at read
      have moved : (pass.along [(atom.text, answer)]).active = true := active
      have deeper : tree.at? (pass.along [(atom.text, answer)]).answers =
          some (Branch.side onTrue onFalse answer) := by
        rw [Pass.along_answers, Tree.at?_append here]
        cases answer <;> rfl
      rw [List.length_cons, ← Nat.add_assoc, runPass_answered asks read,
        ih moved deeper inside recorded (by simpa [Pass.along] using answered)]
      simp [sameText]

theorem runPass_deviating {state : σ} {tree : Tree} {pass : Pass} {atom : Atom} {onTrue onFalse : Branch}
    {fault : Fault} (active : pass.active = true)
    (here : tree.at? pass.answers = some (.node atom onTrue onFalse))
    (deviates : Deviates step state atom fault) (budget : Nat) :
    runPass step budget state tree pass = .error fault := by
  cases deviates with
  | reads asks other => exact runPass_refused asks (Pass.read_other active here other) budget
  | returns ends =>
      rw [runPass_finish ends, Pass.resolve_early here]
      rfl

variable (step) in
/-- Before the end of a path, where a test is recorded, a rule deviates from it or raises a fault. -/
inductive StopsOn (branch : Branch) (state : σ) (path : List Bool) (fault : Fault) : Prop
  | intro (before rest : List Bool) {last : σ} {atom : Atom} {onTrue onFalse : Branch}
      (split : path = before ++ rest) (reads : Reads step state (branch.trail before) last)
      (recorded : branch.follow before = some (.node atom onTrue onFalse))
      (stops : Deviates step last atom fault ∨ step last = .raise fault)

/-- What happens below a node happens below it after the answer that leads there. -/
theorem StopsOn.cons {atom : Atom} {onTrue onFalse : Branch} {state : σ} {test : Test} {next : Bool → σ}
    {answer : Bool} {path : List Bool} {fault : Fault} (asks : step state = .read test next)
    (same : test.text = atom.text)
    (stops : StopsOn step (Branch.side onTrue onFalse answer) (next answer) path fault) :
    StopsOn step (.node atom onTrue onFalse) state (answer :: path) fault := by
  obtain @⟨before, rest, last, met, metTrue, metFalse, split, reads, recorded, stop⟩ := stops
  have deeper : (Branch.node atom onTrue onFalse).follow (answer :: before) = some (.node met metTrue metFalse) := by
    rw [Branch.follow_node, recorded]
  refine .intro (answer :: before) rest (by rw [split, List.cons_append]) ?_ deeper stop
  rw [Branch.trail_node, ← same]
  exact .cons asks reads

variable (step) in
/-- A rule that is given the answers of a path makes the tests that are recorded on it, or stops before. -/
theorem reads_or_stops (branch found : Branch) (state : σ) (path : List Bool)
    (reached : branch.follow path = some found) :
    (∃ last, Reads step state (branch.trail path) last) ∨ ∃ fault, StopsOn step branch state path fault := by
  induction path generalizing branch state with
  | nil => exact .inl ⟨state, by cases branch <;> exact .nil⟩
  | cons answer path ih =>
      obtain ⟨atom, onTrue, onFalse, rfl, inside⟩ := Branch.node_of_follow_cons reached
      have stopsHere {fault : Fault} (stops : Deviates step state atom fault ∨ step state = .raise fault) :
          StopsOn step (.node atom onTrue onFalse) state (answer :: path) fault :=
        .intro [] (answer :: path) rfl .nil rfl stops
      cases move : step state with
      | finish value => exact .inr ⟨_, stopsHere (.inl (.returns move))⟩
      | raise fault => exact .inr ⟨_, stopsHere (.inr move)⟩
      | read test next =>
          by_cases same : test.text = atom.text
          · rcases ih _ (next answer) inside with ⟨last, reads⟩ | ⟨fault, stops⟩
            · refine .inl ⟨last, ?_⟩
              rw [Branch.trail_node, ← same]
              exact .cons move reads
            · exact .inr ⟨fault, stops.cons move same⟩
          · exact .inr ⟨_, stopsHere (.inl (.reads move same))⟩

theorem runPass_stops {state : σ} {tree : Tree} {pass : Pass} {branch : Branch} {path : List Bool}
    {fault : Fault} (active : pass.active = true) (here : tree.at? pass.answers = some branch)
    (stops : StopsOn step branch state path fault)
    (answered : forced pass.assignment pass.transcript.length path.length = path) (budget : Nat) :
    runPass step (budget + path.length) state tree pass = .error fault := by
  obtain @⟨before, rest, last, met, metTrue, metFalse, rfl, reads, recorded, stop⟩ := stops
  have position := Branch.trail_answers recorded
  have count : (branch.trail before).length = before.length := by rw [← Trail.answers_length, position]
  have led := runPass_along active reads here (by rw [position, recorded]) (by rw [position])
    (by rw [count, position, forced_before answered]) (budget + rest.length)
  rw [List.length_append, Nat.add_comm before.length, ← Nat.add_assoc, ← count, led]
  rcases stop with deviates | raises
  · have there : tree.at? (pass.along (branch.trail before)).answers = some (.node met metTrue metFalse) := by
      rw [Pass.along_answers, position, Tree.at?_append here, recorded]
    have moved : (pass.along (branch.trail before)).active = true := active
    exact runPass_deviating moved there deviates _
  · exact runPass_raise raises ..

def Pass.grown (pass : Pass) (atoms : List Atom) : Pass :=
  { pass with
    transcript := pass.transcript ++ falseTrail atoms
    discovered := pass.discovered ++ atoms }

theorem Pass.grown_length (pass : Pass) (atom : Atom) :
    (pass.grown [atom]).transcript.length = pass.transcript.length + 1 := by
  simp [grown, falseTrail]

theorem Pass.grown_answers (pass : Pass) (atom : Atom) : (pass.grown [atom]).answers = pass.answers ++ [false] := by
  simp [grown, answers, falseTrail]

variable (step) in
/-- The ways in which a pass can go on from an unresolved position, with room for so many more tests. -/
inductive Growth (state : σ) (tree : Tree) (pass : Pass) (room : Nat) : Except Fault (Tree × Pass × Bool) → Prop
  | grows {atoms : List Atom} {result : Bool} (grows : Grows step pass.transcript.length state atoms result)
      (fits : atoms.length ≤ room) :
      Growth state tree pass room (.ok (tree.put pass.answers (chain atoms result), pass.grown atoms, result))
  | raises {asked : Trail} {last : σ} {fault : Fault} (reads : Reads step state asked last)
      (raises : step last = .raise fault) : Growth state tree pass room (.error fault)
  | tooDeep {asked : Trail} {last : σ} {test : Test} {next : Bool → σ} (reads : Reads step state asked last)
      (full : asked.length = room) (asks : step last = .read test next) :
      Growth state tree pass room
        (.error (.tooDeep test.text (pass.transcript.length + room + 1) pass.capacity))

/-- What can happen behind a new test can happen from the test on. -/
theorem Growth.read {state : σ} {test : Test} {next : Bool → σ} {tree : Tree} {pass : Pass} {room : Nat}
    {outcome : Except Fault (Tree × Pass × Bool)} (asks : step state = .read test next)
    (here : tree.at? pass.answers = some .unresolved)
    (growth : Growth step (next false)
      (tree.put pass.answers (.node (pass.newAtom test) .unresolved .unresolved))
      (pass.grown [pass.newAtom test]) room outcome) :
    Growth step state tree pass (room + 1) outcome := by
  cases growth with
  | @grows atoms result grows fits =>
      have onePut := Tree.put_put here (.node (pass.newAtom test) .unresolved .unresolved) (chain atoms result) [false]
      have onePass : (pass.grown [pass.newAtom test]).grown atoms = pass.grown (pass.newAtom test :: atoms) := by
        simp [Pass.grown, falseTrail]
      rw [Pass.grown_length] at grows
      rw [Pass.grown_answers, onePut, onePass]
      exact .grows (.read asks grows) (Nat.succ_le_succ fits)
  | raises reads raises => exact .raises (.cons asks reads) raises
  | @tooDeep asked last test' next' reads full asks' =>
      have deep : Growth step state tree pass _ _ := .tooDeep (.cons asks reads) rfl asks'
      simpa [Pass.grown, falseTrail, full, Nat.add_assoc, Nat.add_comm 1] using deep

theorem Growth.finish {state : σ} {value : Value} {tree : Tree} {pass : Pass} (ends : step state = .finish value)
    (here : tree.at? pass.answers = some .unresolved) (room budget : Nat) :
    Growth step state tree pass room (runPass step budget state tree pass) := by
  have same : pass.grown [] = pass := by simp [Pass.grown, falseTrail]
  have grown : Growth step state tree pass room _ := .grows (.finish ends) (Nat.zero_le room)
  rw [same] at grown
  rw [runPass_finish ends, Pass.resolve_new here]
  exact grown

theorem runPass_growth {state : σ} {tree : Tree} {pass : Pass} (active : pass.active = true)
    (here : tree.at? pass.answers = some .unresolved)
    (falses : ∀ depth, pass.transcript.length < depth → bit pass.assignment depth = false)
    (room : Nat) (capacity : pass.capacity = (pass.transcript.length + room : Nat)) :
    Growth step state tree pass room (runPass step room state tree pass) := by
  induction room generalizing state tree pass with
  | zero =>
      cases move : step state with
      | raise fault => exact runPass_raise move .. ▸ .raises .nil move
      | finish value => exact .finish move here 0 0
      | read test next =>
          have full : pass.capacity < pass.nextDepth := by
            rw [capacity, Pass.nextDepth]
            omega
          rw [runPass_refused move (Pass.read_beyond active here full)]
          exact .tooDeep .nil rfl move
  | succ room ih =>
      cases move : step state with
      | raise fault => exact runPass_raise move .. ▸ .raises .nil move
      | finish value => exact .finish move here _ _
      | read test next =>
          have fits : (pass.nextDepth : Int) ≤ pass.capacity := by
            rw [capacity, Pass.nextDepth]
            omega
          have answer : bit pass.assignment pass.nextDepth = false := falses _ (Nat.lt_succ_self _)
          have read : pass.read tree test = .ok _ := Pass.read_new active here fits
          rw [answer] at read
          rw [runPass_answered move read]
          have moved : (pass.grown [pass.newAtom test]).active = true := active
          refine .read move here (ih moved ?_ ?_ ?_)
          · rw [Pass.grown_answers, Tree.at?_append (Tree.at?_put here _)]
            rfl
          · intro depth deeper
            rw [Pass.grown_length] at deeper
            exact falses depth (by omega)
          · rw [Pass.grown_length, Nat.add_right_comm]
            exact capacity

end Extension.Decision
