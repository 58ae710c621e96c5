import Extension.Proofs.Decision.Exhaustion

namespace Extension.Decision

/-! A pass of an exploration while it is being run.

Nothing is known of the one who makes its tests: it may fail at any test and go on, and the tests need not come
from one rule.  The pass is led along the path that its assignment forces, or it has come to the end of this path
and adds tests there, one behind the other, which are all answered with false.
-/

namespace Branch

theorem put_found {branch found : Branch} {path : List Bool} (reached : branch.follow path = some found) :
    branch.put path found = branch := by
  induction path generalizing branch with
  | nil =>
      cases reached
      cases found <;> rfl
  | cons answer path ih =>
      obtain ⟨atom, onTrue, onFalse, rfl, inside⟩ := node_of_follow_cons reached
      cases answer with
      | true => simp only [put, if_true, side] at inside ⊢; rw [ih inside]
      | false => simp only [put, Bool.false_eq_true, if_false, side] at inside ⊢; rw [ih inside]

end Branch

/-- A chain of new tests, all answered with false, where no result has been found so far. -/
def openChain : List Atom → Branch
  | [] => .unresolved
  | atom :: atoms => .node atom .unresolved (openChain atoms)

theorem openChain_follow (atoms : List Atom) :
    (openChain atoms).follow (falseTrail atoms).answers = some .unresolved := by
  induction atoms with
  | nil => rfl
  | cons atom atoms ih => exact ih

theorem openChain_finish (atoms : List Atom) (result : Bool) :
    (openChain atoms).put (falseTrail atoms).answers (.result result) = chain atoms result := by
  induction atoms with
  | nil => rfl
  | cons atom atoms ih => exact congrArg (Branch.node atom .unresolved) ih

theorem openChain_extend (atoms : List Atom) (last : Atom) :
    (openChain atoms).put (falseTrail atoms).answers (.node last .unresolved .unresolved) =
      openChain (atoms ++ [last]) := by
  induction atoms with
  | nil => rfl
  | cons atom atoms ih => exact congrArg (Branch.node atom .unresolved) ih

theorem Consecutive.concat {depth : Nat} {atoms : List Atom} (consecutive : Consecutive depth atoms) {last : Atom}
    (number : last.depth = (depth + atoms.length + 1 : Nat)) : Consecutive depth (atoms ++ [last]) := by
  induction atoms generalizing depth with
  | nil => exact ⟨number, trivial⟩
  | cons atom atoms ih =>
      refine ⟨consecutive.1, ih consecutive.2 ?_⟩
      rw [number, List.length_cons]
      congr 1
      omega

/-- The first assignment in the queue leads along the trail to an open end. -/
structure Opening (capacity : Nat) (before : Exploration) (trail : Trail) (waiting : List Trail) : Prop where
  accounted : Accounted capacity before
  queue : before.queue = (trail :: waiting).map Trail.assignment
  ends : ((trail :: waiting).map openEnd ++ before.records.map PassRecord.finalEnd).Perm before.tree.onTrue.ends

/-- The pass for the first assignment in the queue is being run. -/
inductive Underway (capacity : Nat) : Exploration → Pass → Prop
  | led {before : Exploration} {trail : Trail} {waiting : List Trail} {met rest : Trail} {text : String}
      {answer : Bool} (opening : Opening capacity before trail waiting)
      (split : trail = met ++ (text, answer) :: rest) :
      Underway capacity before ((freshPass trail.answers capacity).along met)
  | grown {before : Exploration} {trail : Trail} {waiting : List Trail} {atoms : List Atom}
      (opening : Opening capacity before trail waiting) (consecutive : Consecutive trail.length atoms)
      (fits : trail.length + atoms.length ≤ capacity) :
      Underway capacity { before with tree := before.tree.put trail.answers (openChain atoms) }
        (((freshPass trail.answers capacity).along trail).grown atoms)

variable {capacity : Nat} {before exploration : Exploration} {trail : Trail} {waiting : List Trail} {pass : Pass}

namespace Opening

theorem opened (opening : Opening capacity before trail waiting) :
    before.tree.at? trail.answers = some .unresolved ∧ before.tree.onTrue.trail trail.answers = trail := by
  have member : openEnd trail ∈ before.tree.onTrue.ends := opening.ends.mem_iff.mp (by simp)
  exact Branch.mem_ends_iff.mp member

theorem room (opening : Opening capacity before trail waiting) : trail.length ≤ capacity := by
  have bound := opening.accounted.numbered.length_le (Nat.zero_le capacity) opening.opened.1
  rwa [Nat.zero_add, Trail.answers_length] at bound

/-- A pass that has met all tests of the trail stands at its open end. -/
theorem arrived (opening : Opening capacity before trail waiting) :
    Underway capacity before ((freshPass trail.answers capacity).along trail) := by
  have same : before.tree.put trail.answers (openChain []) = before.tree :=
    congrArg (fun onTrue => { before.tree with onTrue }) (Branch.put_found opening.opened.1)
  have underway : Underway capacity { before with tree := before.tree.put trail.answers (openChain []) }
      (((freshPass trail.answers capacity).along trail).grown []) := .grown opening trivial opening.room
  rw [same] at underway
  simpa [Pass.grown, falseTrail] using underway

theorem underway (opening : Opening capacity before trail waiting) {met rest : Trail} (split : trail = met ++ rest) :
    Underway capacity before ((freshPass trail.answers capacity).along met) := by
  cases rest with
  | nil =>
      rw [List.append_nil] at split
      subst split
      exact opening.arrived
  | cons next rest => exact .led opening split

/-- What stands on the trail behind the tests that have been met. -/
theorem node (opening : Opening capacity before trail waiting) {met rest : Trail} {text : String} {answer : Bool}
    (split : trail = met ++ (text, answer) :: rest) :
    ∃ atom onTrue onFalse, before.tree.at? met.answers = some (.node atom onTrue onFalse) ∧ atom.text = text :=
  Branch.node_of_trail opening.opened.1 (opening.opened.2.trans split)

end Opening

namespace Underway

/-- The first pass in the queue begins. -/
theorem begin {assignment : Nat} {queue : List Nat} (accounted : Accounted capacity exploration)
    (next : exploration.queue = assignment :: queue) :
    Underway capacity exploration { assignment, capacity } := by
  obtain ⟨waiting, queued, ends⟩ := accounted.accounted
  cases waiting with
  | nil => simp [next] at queued
  | cons trail waiting =>
      obtain ⟨rfl, _⟩ := List.cons.inj (next.symm.trans queued)
      have opening : Opening capacity exploration trail waiting := ⟨accounted, queued, ends⟩
      have split : trail = [] ++ trail := rfl
      exact opening.underway split

theorem led_position (trail : Trail) (capacity : Nat) (met : Trail) :
    ((freshPass trail.answers capacity).along met).answers = met.answers :=
  Pass.along_answers ..

theorem grown_position (trail : Trail) (capacity : Nat) (atoms : List Atom) :
    (((freshPass trail.answers capacity).along trail).grown atoms).answers =
      trail.answers ++ (falseTrail atoms).answers := by
  simp [Pass.answers, Pass.grown, Pass.along, freshPass, Trail.answers]

theorem grown_nextDepth (trail : Trail) (capacity : Nat) (atoms : List Atom) :
    (((freshPass trail.answers capacity).along trail).grown atoms).nextDepth = trail.length + atoms.length + 1 := by
  simp [Pass.nextDepth, Pass.grown, Pass.along, freshPass, falseTrail]

theorem grown_here (opening : Opening capacity before trail waiting) (atoms : List Atom) :
    (before.tree.put trail.answers (openChain atoms)).at?
      (((freshPass trail.answers capacity).along trail).grown atoms).answers = some .unresolved := by
  rw [grown_position, Tree.at?_append (Tree.at?_put opening.opened.1 _), openChain_follow]

theorem queued (underway : Underway capacity exploration pass) :
    ∃ assignment queue, exploration.queue = assignment :: queue := by
  cases underway with
  | led opening _ => exact ⟨_, _, opening.queue⟩
  | grown opening _ _ => exact ⟨_, _, opening.queue⟩

/-- A test that is answered leaves the pass under way. -/
theorem read {test : Test} {answered : Answered} (underway : Underway capacity exploration pass)
    (read : pass.read exploration.tree test = .ok answered) :
    Underway capacity { exploration with tree := answered.tree } answered.pass := by
  cases underway with
  | @led _ trail waiting met rest text answer opening split =>
      obtain ⟨atom, onTrue, onFalse, here, rfl⟩ := opening.node split
      rw [← led_position trail capacity met] at here
      by_cases same : test.text = atom.text
      · have forced : bit ((freshPass trail.answers capacity).along met).assignment
            ((freshPass trail.answers capacity).along met).nextDepth = answer := by
          have depth : ((freshPass trail.answers capacity).along met).nextDepth = met.length + 1 := by
            simp [Pass.nextDepth, Pass.along, freshPass]
          rw [depth]
          refine (bit_assignmentOf trail.answers met.length).trans ?_
          rw [split]
          simp
        rw [Pass.read_recorded rfl here same, forced] at read
        cases read
        rw [Pass.along_along]
        have further : trail = (met ++ [(atom.text, answer)]) ++ rest := by rw [split, List.append_cons]
        exact opening.underway further
      · rw [Pass.read_other rfl here same] at read
        cases read
  | @grown before trail waiting atoms opening consecutive fits =>
      have here := grown_here opening atoms
      have depth := grown_nextDepth trail capacity atoms
      generalize moved : ((freshPass trail.answers capacity).along trail).grown atoms = pass at here depth read
      have limit : pass.capacity = capacity := by rw [← moved]; rfl
      have active : pass.active = true := by rw [← moved]; rfl
      by_cases room : (pass.nextDepth : Int) ≤ pass.capacity
      · have answer : bit pass.assignment pass.nextDepth = false := by
          rw [depth, ← moved]
          refine freshPass_false ?_ capacity
          rw [Trail.answers_length]
          omega
        rw [Pass.read_new active here room, answer] at read
        cases read
        have longer : { pass.along [(test.text, false)] with discovered := pass.discovered ++ [pass.newAtom test] } =
            ((freshPass trail.answers capacity).along trail).grown (atoms ++ [pass.newAtom test]) := by
          rw [← moved]
          simp [Pass.grown, Pass.along, falseTrail, Pass.newAtom]
        have put : (before.tree.put trail.answers (openChain atoms)).put pass.answers
            (.node (pass.newAtom test) .unresolved .unresolved) =
              before.tree.put trail.answers (openChain (atoms ++ [pass.newAtom test])) := by
          rw [← moved, grown_position, Tree.put_put opening.opened.1, openChain_extend]
        rw [longer, put]
        refine .grown opening (consecutive.concat ?_) ?_
        · rw [Pass.newAtom, depth]
        · rw [limit, depth] at room
          rw [List.length_append, List.length_singleton]
          omega
      · rw [Pass.read_beyond active here (by omega)] at read
        cases read

/-- No more tests have been made than there is room for. -/
theorem length_le (underway : Underway capacity exploration pass) : pass.transcript.length ≤ capacity := by
  cases underway with
  | @led before trail waiting met rest text answer opening split =>
      have room := opening.room
      rw [split, List.length_append] at room
      simp only [Pass.along, freshPass, List.nil_append]
      omega
  | grown opening consecutive fits =>
      simpa [Pass.grown, Pass.along, freshPass, falseTrail] using fits

/-- A pass is run only while there are combinations of answers that no pass has had. -/
theorem records_lt (underway : Underway capacity exploration pass) : exploration.records.length < 2 ^ capacity := by
  cases underway with
  | led opening _ => exact opening.accounted.records_lt opening.queue
  | @grown before _ _ _ opening _ _ =>
      change before.records.length < 2 ^ capacity
      exact opening.accounted.records_lt opening.queue

/-- A pass that ends without a fault leaves everything accounted for. -/
theorem close {result : Bool} {tree : Tree} {assignment : Nat} {queue : List Nat}
    (underway : Underway capacity exploration pass) (next : exploration.queue = assignment :: queue)
    (resolved : pass.resolve exploration.tree result = .ok tree) :
    Accounted capacity (exploration.record queue assignment tree pass result) := by
  cases underway with
  | @led _ trail waiting met rest text answer opening split =>
      obtain ⟨atom, onTrue, onFalse, here, _⟩ := opening.node split
      rw [← led_position trail capacity met] at here
      rw [Pass.resolve_early here] at resolved
      cases resolved
  | @grown before trail waiting atoms opening consecutive fits =>
      rw [Pass.resolve_new (grown_here opening atoms)] at resolved
      cases resolved
      obtain ⟨rfl, rfl⟩ := List.cons.inj (next.symm.trans opening.queue)
      have put : (before.tree.put trail.answers (openChain atoms)).put
          (((freshPass trail.answers capacity).along trail).grown atoms).answers (.result result) =
            before.tree.put trail.answers (chain atoms result) := by
        rw [grown_position, Tree.put_put opening.opened.1, openChain_finish]
      rw [put]
      exact opening.accounted.grow opening.ends opening.opened.1 opening.opened.2 consecutive fits result

end Underway

end Extension.Decision
