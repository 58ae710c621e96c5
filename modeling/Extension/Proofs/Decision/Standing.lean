import Extension.Proofs.Decision.Marks
import Extension.Proofs.Decision.Underway

namespace Extension.Decision

/-! Where a pass of an exploration stands.

It stands at a test that an earlier pass made, or at an open place.  So nothing is ever compared with the result of
an earlier pass, and what ends without a fault was open when it began.
-/

/-- All that is marked in the branch is marked in the other one, too. -/
def Branch.Keeps (branch grown : Branch) : Prop :=
  ∀ path mark, branch.marked path = some mark → grown.marked path = some mark

def Tree.Keeps (tree grown : Tree) : Prop :=
  tree.onTrue.Keeps grown.onTrue

theorem Branch.Keeps.side {atom : Atom} {onTrue onFalse moreTrue moreFalse : Branch}
    (keeps : (Branch.node atom onTrue onFalse).Keeps (.node atom moreTrue moreFalse)) (answer : Bool) :
    (Branch.side onTrue onFalse answer).Keeps (.side moreTrue moreFalse answer) := by
  intro path mark here
  have there := keeps (answer :: path) mark
  rw [marked_node, marked_node] at there
  exact there here

/-- What is open in the grown branch is open in the other one, or lies behind what is. -/
theorem Branch.Keeps.open_before {branch grown : Branch} (keeps : branch.Keeps grown) {path : List Bool}
    (opened : grown.follow path = some .unresolved) :
    ∃ start rest, path = start ++ rest ∧ branch.follow start = some .unresolved := by
  induction path generalizing branch grown with
  | nil =>
      obtain rfl := Option.some.inj opened
      cases branch with
      | unresolved => exact ⟨[], [], rfl, rfl⟩
      | result value => cases keeps [] (.result value) rfl
      | node atom onTrue onFalse => cases keeps [] (.test atom) rfl
  | cons answer path ih =>
      obtain ⟨atom, moreTrue, moreFalse, rfl, further⟩ := node_of_follow_cons opened
      cases branch with
      | unresolved => exact ⟨[], _, rfl, rfl⟩
      | result value => cases keeps [] (.result value) rfl
      | node met onTrue onFalse =>
          cases keeps [] (.test met) rfl
          obtain ⟨start, rest, rfl, before⟩ := ih (keeps.side answer) further
          exact ⟨answer :: start, rest, rfl, by rw [follow_node, before]⟩

theorem Branch.marked_behind_open {branch : Branch} {start : List Bool}
    (opened : branch.follow start = some .unresolved) (rest : List Bool) : branch.marked (start ++ rest) = none := by
  rw [marked, follow_append, opened, Option.bind_some]
  exact marked_unresolved rest

variable {capacity : Nat} {exploration : Exploration} {pass : Pass}

/-- No earlier pass has returned where a pass stands. -/
theorem Underway.place (underway : Underway capacity exploration pass) :
    (∃ atom, exploration.tree.marked pass.answers = some (.test atom)) ∨
      exploration.tree.at? pass.answers = some .unresolved := by
  cases underway with
  | @led _ trail waiting met rest text answer opening split =>
      obtain ⟨atom, onTrue, onFalse, here, _⟩ := opening.node split
      rw [← led_position trail capacity met, Tree.at?] at here
      exact .inl ⟨atom, by rw [Tree.marked, Branch.marked, here]; rfl⟩
  | grown opening => exact .inr (grown_here opening _)

theorem Tree.marked_open {tree : Tree} {path : List Bool} (opened : tree.at? path = some .unresolved) :
    tree.marked path = none := by
  rw [at?] at opened
  rw [marked, Branch.marked, opened]
  rfl

theorem Underway.keeps {test : Test} {answered : Answered} (underway : Underway capacity exploration pass)
    (read : pass.read exploration.tree test = .ok answered) : exploration.tree.Keeps answered.tree := by
  have active : pass.active = true := by
    cases closed : pass.active with
    | true => rfl
    | false =>
        rw [Pass.read_over closed] at read
        cases read
  rw [Pass.read_eq active] at read
  rcases underway.place with ⟨atom, here⟩ | opened
  · rw [here] at read
    simp only at read
    split at read
    · cases read
      exact fun _ _ here => here
    · cases read
  · rw [Tree.marked_open opened] at read
    simp only at read
    split at read
    · cases read
    · cases read
      intro path mark marked
      have grown := Tree.marked_put opened (.test (pass.newAtom test)) path
      -- the new test is put where nothing was marked, so all marks are somewhere else
      have apart : path ≠ pass.answers := by
        rintro rfl
        have none := Tree.marked_open opened
        rw [Tree.marked] at none
        rw [none] at marked
        cases marked
      rw [if_neg apart] at grown
      exact grown.trans marked

/-- A test that a pass refuses for the sake of an earlier one is not the one that was made there. -/
theorem Underway.read_error {test : Test} {fault : Fault} (underway : Underway capacity exploration pass)
    (read : pass.read exploration.tree test = .error fault) (contradicts : fault.isNonDeterminism = true) :
    ∃ atom, exploration.tree.marked pass.answers = some (.test atom) ∧ atom.text ≠ test.text ∧
      fault = .readOther test.text atom.text atom.depth := by
  cases active : pass.active with
  | false =>
      rw [Pass.read_over active] at read
      cases read
      cases contradicts
  | true =>
      rw [Pass.read_eq active] at read
      rcases underway.place with ⟨atom, here⟩ | opened
      · rw [here] at read
        simp only at read
        split at read
        · cases read
        · next differ =>
            cases read
            exact ⟨atom, here, differ, rfl⟩
      · rw [Tree.marked_open opened] at read
        simp only at read
        split at read
        · cases read
          cases contradicts
        · cases read

theorem Underway.resolve_error {result : Bool} {fault : Fault} (underway : Underway capacity exploration pass)
    (resolved : pass.resolve exploration.tree result = .error fault) :
    ∃ atom, exploration.tree.marked pass.answers = some (.test atom) ∧
      fault = .returnedEarly atom.text atom.depth := by
  rw [Pass.resolve_eq] at resolved
  rcases underway.place with ⟨atom, here⟩ | opened
  · rw [here] at resolved
    cases resolved
    exact ⟨atom, here, rfl⟩
  · rw [Tree.marked_open opened] at resolved
    cases resolved

theorem Underway.resolve_open {result : Bool} {tree : Tree} (underway : Underway capacity exploration pass)
    (resolved : pass.resolve exploration.tree result = .ok tree) :
    exploration.tree.at? pass.answers = some .unresolved := by
  rcases underway.place with ⟨atom, here⟩ | opened
  · rw [Pass.resolve_eq, here] at resolved
    cases resolved
  · exact opened

end Extension.Decision
