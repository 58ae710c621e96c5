import Extension.Proofs.Decision.Exhaustion
import Extension.Rule.Expression

namespace Extension.Decision

/-! Exploring a pure rule.

All passes of a pure rule start alike, so that the tree is at all times a part of what the rule unfolds to:
`Agrees` says so.  No pass can contradict another then.  Only the capacity can end an exploration early, and the rule itself by
raising a fault.
-/

variable {σ : Type} (step : σ → Move σ)

/-- The branch is what the rule unfolds to, as far as it is resolved. -/
def Branch.Agrees : σ → Nat → Branch → Prop
  | _, _, .unresolved => True
  | state, _, .result value => ∃ returned, step state = .finish returned ∧ returned.truthy = value
  | state, depth, .node atom onTrue onFalse =>
      ∃ test next, step state = .read test next ∧
        atom = { text := test.text, depth := (depth + 1 : Nat), key := test.key } ∧
        onTrue.Agrees (next true) (depth + 1) ∧ onFalse.Agrees (next false) (depth + 1)

/-- What a tree shows where a rule does something after so many tests. -/
inductive Shows (depth : Nat) : Option Deed → Option Branch → Prop
  | read (test : Test) (onTrue onFalse : Branch) :
      Shows depth (some (.read test))
        (some (.node { text := test.text, depth := (depth + 1 : Nat), key := test.key } onTrue onFalse))
  | finish (value : Value) : Shows depth (some (.finish value)) (some (.result value.truthy))
  | beyond : Shows depth none none

/-- The tree is the whole unfolding of the rule: after any answers it shows what the rule does then. -/
structure Unfolds (state : σ) (tree : Tree) : Prop where
  onFalse : tree.onFalse = .unresolved
  shows : ∀ answers, Shows answers.length (deed? step state answers) (tree.at? answers)

/-- After as many tests as the capacity allows the rule makes another one, which the fault names. -/
inductive Overreads (capacity : Nat) (state : σ) : Fault → Prop
  | intro {answers : List Bool} {test : Test} (full : answers.length = capacity)
      (asks : deed? step state answers = some (.read test)) :
      Overreads capacity state (.tooDeep test.text (capacity + 1) capacity)

/-- With the answers of a trail the rule comes to raise a fault, or to make a test beyond the capacity. -/
inductive Breaks (capacity : Nat) (state : σ) (trail : Trail) : Fault → Prop
  | raises {last : σ} {fault : Fault} (reads : Reads step state trail last) (raises : step last = .raise fault) :
      Breaks capacity state trail fault
  | overreads {last : σ} {test : Test} {next : Bool → σ} (reads : Reads step state trail last)
      (full : trail.length = capacity) (asks : step last = .read test next) :
      Breaks capacity state trail (.tooDeep test.text (capacity + 1) capacity)

variable {step}

namespace Branch.Agrees

variable {state last : σ} {depth : Nat} {branch : Branch}

theorem side {atom : Atom} {onTrue onFalse : Branch} {test : Test} {next : Bool → σ}
    (agrees : (Branch.node atom onTrue onFalse).Agrees step state depth) (asks : step state = .read test next)
    (answer : Bool) : (Branch.side onTrue onFalse answer).Agrees step (next answer) (depth + 1) := by
  obtain ⟨_, _, recorded, _, trueSide, falseSide⟩ := agrees
  rw [asks] at recorded
  cases recorded
  cases answer with
  | true => exact trueSide
  | false => exact falseSide

theorem follow {found : Branch} {asked : Trail} (agrees : branch.Agrees step state depth)
    (reads : Reads step state asked last) (reached : branch.follow asked.answers = some found) :
    found.Agrees step last (depth + asked.length) := by
  induction reads generalizing branch depth with
  | nil =>
      cases reached
      exact agrees
  | cons asks _ ih =>
      obtain ⟨atom, onTrue, onFalse, rfl, inside⟩ := Branch.node_of_follow_cons reached
      rw [List.length_cons, ← Nat.add_assoc, Nat.add_right_comm]
      exact ih (agrees.side asks _) inside

/-- What the rule does behind an open end may be put there. -/
theorem put {new : Branch} {asked : Trail} (agrees : branch.Agrees step state depth)
    (reads : Reads step state asked last) (opened : branch.follow asked.answers = some .unresolved)
    (newAgrees : new.Agrees step last (depth + asked.length)) :
    (branch.put asked.answers new).Agrees step state depth := by
  induction reads generalizing branch depth with
  | nil => cases branch <;> exact newAgrees
  | @cons state last test next answer rest asks _ ih =>
      obtain ⟨atom, onTrue, onFalse, rfl, inside⟩ := Branch.node_of_follow_cons opened
      rw [List.length_cons, ← Nat.add_assoc, Nat.add_right_comm] at newAgrees
      have grown := ih (agrees.side asks answer) inside newAgrees
      obtain ⟨made, after, recorded, same, trueSide, falseSide⟩ := agrees
      rw [asks] at recorded
      cases recorded
      cases answer with
      | true => exact ⟨test, next, asks, same, grown, falseSide⟩
      | false => exact ⟨test, next, asks, same, trueSide, grown⟩

theorem ofGrows {atoms : List Atom} {result : Bool} (grows : Grows step depth state atoms result) :
    (chain atoms result).Agrees step state depth := by
  induction grows with
  | finish ends => exact ⟨_, ends, rfl⟩
  | read asks _ ih => exact ⟨_, _, asks, rfl, trivial, ih⟩

/-- On the tests that it makes by itself a rule never stops. -/
theorem not_stopsOn (agrees : branch.Agrees step state depth)
    {path : List Bool} {fault : Fault} : ¬ StopsOn step branch state path fault := by
  rintro @⟨before, rest, last, atom, onTrue, onFalse, split, reads, recorded, stops⟩
  have position := Branch.trail_answers recorded
  have here := agrees.follow reads (by rw [position]; exact recorded)
  obtain ⟨test, next, asks, rfl, _⟩ := here
  rcases stops with deviates | raises
  · cases deviates with
    | reads asked other =>
        rw [asks] at asked
        cases asked
        exact other rfl
    | returns ends => rw [asks] at ends; contradiction
  · rw [asks] at raises
    contradiction

theorem shows (agrees : branch.Agrees step state depth) (complete : branch.Complete) (answers : List Bool) :
    Shows (depth + answers.length) (deed? step state answers) (branch.follow answers) := by
  induction answers generalizing branch state depth with
  | nil =>
      rw [deed?]
      cases branch with
      | unresolved => exact complete.elim
      | result value =>
          obtain ⟨returned, ends, rfl⟩ := agrees
          rw [ends]
          exact .finish returned
      | node atom onTrue onFalse =>
          obtain ⟨test, next, asks, rfl, _⟩ := agrees
          rw [asks]
          exact .read test onTrue onFalse
  | cons answer answers ih =>
      cases branch with
      | unresolved => exact complete.elim
      | result value =>
          obtain ⟨returned, ends, rfl⟩ := agrees
          rw [deed?, ends]
          exact .beyond
      | node atom onTrue onFalse =>
          obtain ⟨test, next, asks, _⟩ := id agrees
          rw [deed?_read asks, Branch.follow_node, List.length_cons, ← Nat.add_assoc, Nat.add_right_comm]
          exact ih (agrees.side asks answer) (complete.side answer)

/-- A whole branch within the capacity bounds the tests of the rule. -/
theorem returnsWithin {capacity : Nat} (agrees : branch.Agrees step state depth) (complete : branch.Complete)
    (numbered : branch.Numbered capacity depth) : ReturnsWithin step (capacity - depth) state := by
  induction branch generalizing state depth with
  | unresolved => exact complete.elim
  | result value =>
      obtain ⟨returned, ends, _⟩ := agrees
      exact .of_finish ends _
  | node atom onTrue onFalse trueIH falseIH =>
      obtain ⟨test, next, asks, _, trueSide, falseSide⟩ := agrees
      obtain ⟨_, room, trueNumbered, falseNumbered⟩ := numbered
      have fewer : capacity - depth = capacity - (depth + 1) + 1 := by omega
      rw [fewer]
      refine .of_read asks fun answer => ?_
      cases answer with
      | true => exact trueIH trueSide complete.1 trueNumbered
      | false => exact falseIH falseSide complete.2 falseNumbered

theorem returns (agrees : branch.Agrees step state depth) (complete : branch.Complete) (truth : String → Bool) :
    Returns step truth state (branch.decide truth) := by
  induction branch generalizing state depth with
  | unresolved => exact complete.elim
  | result value =>
      obtain ⟨returned, ends, rfl⟩ := agrees
      exact ⟨[], ⟨state, returned, .nil, ends, rfl⟩, by simp⟩
  | node atom onTrue onFalse trueIH falseIH =>
      obtain ⟨test, next, asks, rfl, trueSide, falseSide⟩ := agrees
      have below : Returns step truth (next (truth test.text))
          (if truth test.text then onTrue.decide truth else onFalse.decide truth) := by
        cases truth test.text with
        | true => exact trueIH trueSide complete.1
        | false => exact falseIH falseSide complete.2
      obtain ⟨trail, ⟨last, value, reads, ends, truthy⟩, answered⟩ := below
      refine ⟨(test.text, truth test.text) :: trail, ⟨last, value, .cons asks reads, ends, truthy⟩, ?_⟩
      rw [List.forall_mem_cons]
      exact ⟨rfl, answered⟩

/-- There is only one whole branch that a rule agrees with. -/
theorem unique {other : Branch} (agrees : branch.Agrees step state depth) (complete : branch.Complete)
    (otherAgrees : other.Agrees step state depth) (otherComplete : other.Complete) : branch = other := by
  induction branch generalizing other state depth with
  | unresolved => exact complete.elim
  | result value =>
      obtain ⟨returned, ends, rfl⟩ := agrees
      cases other with
      | unresolved => exact otherComplete.elim
      | result otherValue =>
          obtain ⟨_, otherEnds, rfl⟩ := otherAgrees
          rw [ends] at otherEnds
          cases otherEnds
          rfl
      | node =>
          obtain ⟨_, _, asks, _⟩ := otherAgrees
          rw [ends] at asks
          contradiction
  | node atom onTrue onFalse trueIH falseIH =>
      obtain ⟨test, next, asks, rfl, trueSide, falseSide⟩ := agrees
      cases other with
      | unresolved => exact otherComplete.elim
      | result otherValue =>
          obtain ⟨_, ends, _⟩ := otherAgrees
          rw [asks] at ends
          contradiction
      | node =>
          obtain ⟨_, _, otherAsks, rfl, otherTrue, otherFalse⟩ := otherAgrees
          rw [asks] at otherAsks
          cases otherAsks
          rw [trueIH trueSide complete.1 otherTrue otherComplete.1,
            falseIH falseSide complete.2 otherFalse otherComplete.2]

end Branch.Agrees

variable (step) in
/-- The tree is whole, and nothing but what the rule unfolds to. -/
structure Mirrors (state : σ) (tree : Tree) : Prop where
  onFalse : tree.onFalse = .unresolved
  agrees : tree.onTrue.Agrees step state 0
  complete : tree.onTrue.Complete

namespace Mirrors

variable {state : σ} {tree other : Tree}

theorem unfolds (mirrors : Mirrors step state tree) : Unfolds step state tree where
  onFalse := mirrors.onFalse
  shows answers := by
    have shows := mirrors.agrees.shows mirrors.complete answers
    rwa [Nat.zero_add] at shows

theorem unique (mirrors : Mirrors step state tree) (otherMirrors : Mirrors step state other) : tree = other := by
  have branch := mirrors.agrees.unique mirrors.complete otherMirrors.agrees otherMirrors.complete
  cases tree
  cases other
  rw [Tree.mk.injEq]
  exact ⟨branch, mirrors.onFalse.trans otherMirrors.onFalse.symm⟩

end Mirrors

theorem Overreads.not_returnsWithin {capacity : Nat} {state : σ} {fault : Fault}
    (overreads : Overreads step capacity state fault) : ¬ ReturnsWithin step capacity state := by
  intro returns
  obtain @⟨answers, test, full, asks⟩ := overreads
  obtain ⟨asked, last, reads, given, move⟩ := Reads.of_deed? asks
  have length : capacity = asked.length + 0 := by rw [← full, ← given, Trail.answers_length, Nat.add_zero]
  rw [length] at returns
  obtain ⟨value, ends⟩ := (returns.along reads).finish
  rw [ends] at move
  cases move

theorem NeverRaises.overreads {state : σ} (quiet : NeverRaises step state) {capacity : Nat} {trail : Trail}
    {fault : Fault} (breaks : Breaks step capacity state trail fault) : Overreads step capacity state fault := by
  cases breaks with
  | raises reads raises =>
      have raised := reads.deed?_eq
      rw [raises] at raised
      exact absurd raised (quiet _ _)
  | overreads reads full asks =>
      have asked := reads.deed?_eq
      rw [asks] at asked
      exact .intro (by rw [Trail.answers_length, full]) asked

section Explored

variable {state : σ} {capacity : Nat}

/-- While a rule that always starts in one state is explored, its tree agrees with it, and it fails only where the
rule breaks off. -/
theorem Reachable.agrees {exploration : Exploration}
    (reachable : Reachable step (fun _ => state) capacity exploration) :
    exploration.tree.onTrue.Agrees step state 0 ∧
      ∀ fault, exploration.fault = some fault → ∃ trail, Breaks step capacity state trail fault := by
  induction reachable with
  | begun => exact ⟨trivial, fun fault failed => by cases failed⟩
  | @advanced exploration reachable busy ih =>
      obtain ⟨agrees, early⟩ := ih
      obtain ⟨trail, waiting, _, _, opened, _, advanced⟩ := reachable.sound.advance_cases busy
      generalize advance step (fun _ => state) capacity exploration = after at advanced ⊢
      cases advanced with
      | grows reads grows fits =>
          refine ⟨agrees.put reads opened ?_, early⟩
          rw [Nat.zero_add]
          exact .ofGrows grows
      | halts halts =>
          refine ⟨agrees, fun fault failed => ?_⟩
          cases failed
          cases halts with
          | stops stops => exact absurd stops agrees.not_stopsOn
          | raises reads raises => exact ⟨_, .raises reads raises⟩
          | tooDeep reads full asks => exact ⟨_, .overreads reads full asks⟩

theorem exploreFrom_mirrors {tree : Tree}
    (ok : (exploreFrom step (fun _ => state) capacity).outcome = .ok tree) :
    Mirrors step state tree ∧ ReturnsWithin step capacity state ∧
      (exploreFrom step (fun _ => state) capacity).records.length = tree.size + 1 := by
  have reachable := exploreFrom_reachable step (fun _ => state) capacity
  have agrees := reachable.agrees.1
  obtain ⟨rfl, empty⟩ := exploreFrom_ok ok
  have exhausts := reachable.sound.exhausts empty
  have complete := (Tree.isResolved_iff reachable.sound.untouched).mp exhausts.resolved
  refine ⟨⟨reachable.sound.untouched, agrees, complete⟩, ?_, by rw [exhausts.passes, Tree.nodes_length]⟩
  exact agrees.returnsWithin complete reachable.sound.numbered

theorem exploreFrom_breaks {fault : Fault}
    (error : (exploreFrom step (fun _ => state) capacity).outcome = .error fault) :
    ∃ trail, Breaks step capacity state trail fault := by
  refine (exploreFrom_reachable step (fun _ => state) capacity).agrees.2 fault ?_
  cases failed : (exploreFrom step (fun _ => state) capacity).fault <;> simp [Exploration.outcome, failed] at error
  rw [error]

end Explored

/-- What exploring a rule that always starts in one state comes to. -/
inductive Explores (step : σ → Move σ) (state : σ) (capacity : Nat) (ended : Exploration) : Prop
  | succeeds {tree : Tree} (ok : ended.outcome = .ok tree) (mirrors : Mirrors step state tree)
      (returns : ReturnsWithin step capacity state) (passes : ended.records.length = tree.size + 1)
  | fails {fault : Fault} (error : ended.outcome = .error fault) (overreads : Overreads step capacity state fault)

theorem NeverRaises.explores {state : σ} (quiet : NeverRaises step state) (capacity : Nat) :
    Explores step state capacity (exploreFrom step (fun _ => state) capacity) := by
  cases outcome : (exploreFrom step (fun _ => state) capacity).outcome with
  | error fault =>
      obtain ⟨trail, breaks⟩ := exploreFrom_breaks outcome
      exact .fails outcome (quiet.overreads breaks)
  | ok tree =>
      obtain ⟨mirrors, returns, passes⟩ := exploreFrom_mirrors outcome
      exact .succeeds outcome mirrors returns passes

end Extension.Decision
