import Extension.Proofs.Decision.Pass

namespace Extension.Decision

/-! A tree as the marks at its positions.

A position is marked when the rule has returned there or made a test there.  The marks determine the tree, and
growing a tree at an open end adds one mark and changes no other.
-/

inductive Mark where
  | result (value : Bool)
  | test (atom : Atom)
deriving DecidableEq, Repr

/-- What stands at a position that has just been marked. -/
def Mark.branch : Mark → Branch
  | .result value => .result value
  | .test atom => .node atom .unresolved .unresolved

namespace Branch

def mark? : Branch → Option Mark
  | .unresolved => none
  | .result value => some (.result value)
  | .node atom _ _ => some (.test atom)

def marked (branch : Branch) (path : List Bool) : Option Mark :=
  (branch.follow path).bind mark?

@[simp] theorem mark?_branch (mark : Mark) : mark.branch.mark? = some mark := by
  cases mark <;> rfl

@[simp] theorem marked_nil (branch : Branch) : branch.marked [] = branch.mark? := by
  cases branch <;> rfl

theorem marked_node (atom : Atom) (onTrue onFalse : Branch) (answer : Bool) (path : List Bool) :
    (node atom onTrue onFalse).marked (answer :: path) = (side onTrue onFalse answer).marked path := by
  rw [marked, follow_node, marked]

@[simp] theorem marked_unresolved (path : List Bool) : unresolved.marked path = none := by
  cases path <;> rfl

@[simp] theorem marked_result (value answer : Bool) (path : List Bool) :
    (result value).marked (answer :: path) = none := rfl

theorem ext_marked {branch other : Branch} (same : ∀ path, branch.marked path = other.marked path) :
    branch = other := by
  induction branch generalizing other with
  | unresolved =>
      have here := same []
      cases other with
      | unresolved => rfl
      | result | node => cases here
  | result value =>
      have here := same []
      cases other with
      | result => rw [Mark.result.inj (Option.some.inj here)]
      | unresolved | node => cases here
  | node atom onTrue onFalse trueIH falseIH =>
      have here := same []
      cases other with
      | unresolved | result => cases here
      | node otherAtom otherTrue otherFalse =>
          obtain rfl := Mark.test.inj (Option.some.inj here)
          have below (answer : Bool) (path : List Bool) :
              (side onTrue onFalse answer).marked path = (side otherTrue otherFalse answer).marked path := by
            rw [← marked_node atom, same, marked_node]
          obtain rfl : onTrue = otherTrue := trueIH (below true)
          obtain rfl : onFalse = otherFalse := falseIH (below false)
          rfl

/-- A position behind an answer is in the tree just when the position before it is marked with a test. -/
theorem follow_concat_isSome {branch : Branch} {path : List Bool} {answer : Bool} :
    (branch.follow (path ++ [answer])).isSome = true ↔ ∃ atom, branch.marked path = some (.test atom) := by
  rw [follow_append, marked]
  cases branch.follow path with
  | none => simp
  | some found =>
      cases found with
      | unresolved | result => simp [follow, mark?]
      | node => cases answer <;> simp [follow, mark?]

theorem marked_concat {branch : Branch} {path : List Bool} (unmarked : branch.marked path = none) (answer : Bool) :
    branch.marked (path ++ [answer]) = none := by
  have outside : ¬ (branch.follow (path ++ [answer])).isSome = true := by
    rw [follow_concat_isSome, unmarked]
    rintro ⟨atom, test⟩
    cases test
  rw [marked, Option.not_isSome_iff_eq_none.mp outside]
  rfl

/-- An unmarked position of the tree is an open end. -/
theorem follow_of_unmarked {branch : Branch} {path : List Bool} (place : (branch.follow path).isSome = true)
    (unmarked : branch.marked path = none) : branch.follow path = some .unresolved := by
  rw [marked] at unmarked
  cases found : branch.follow path with
  | none => simp [found] at place
  | some branch => cases branch <;> simp_all [mark?]

theorem marked_put {branch : Branch} {path : List Bool} (opened : branch.follow path = some .unresolved)
    (mark : Mark) (other : List Bool) :
    (branch.put path mark.branch).marked other = if other = path then some mark else branch.marked other := by
  induction path generalizing branch other with
  | nil =>
      cases opened
      cases other with
      | nil => simp [put]
      | cons answer other => cases mark <;> simp [put, Mark.branch, marked_node, side]
  | cons answer path ih =>
      obtain ⟨atom, onTrue, onFalse, rfl, inside⟩ := node_of_follow_cons opened
      cases other with
      | nil => cases answer <;> simp [put, mark?]
      | cons first other =>
          have grown := ih inside other
          cases answer <;> cases first <;> simp_all [put, marked_node, side]

end Branch

namespace Tree

def marked (tree : Tree) (path : List Bool) : Option Mark :=
  tree.onTrue.marked path

theorem marked_put {tree : Tree} {path : List Bool} (opened : tree.at? path = some .unresolved) (mark : Mark)
    (other : List Bool) :
    (tree.put path mark.branch).marked other = if other = path then some mark else tree.marked other :=
  Branch.marked_put opened mark other

theorem node_of_marked {tree : Tree} {path : List Bool} {atom : Atom} (here : tree.marked path = some (.test atom)) :
    ∃ onTrue onFalse, tree.at? path = some (.node atom onTrue onFalse) := by
  rw [marked, Branch.marked] at here
  rw [at?]
  cases found : tree.onTrue.follow path with
  | none => simp [found] at here
  | some branch =>
      rw [found] at here
      cases branch with
      | unresolved | result => cases here
      | node met onTrue onFalse =>
          obtain rfl := Mark.test.inj (Option.some.inj here)
          exact ⟨onTrue, onFalse, rfl⟩

theorem ext_marked {tree other : Tree} (untouched : tree.onFalse = other.onFalse)
    (same : ∀ path, tree.marked path = other.marked path) : tree = other := by
  have started : tree.onTrue = other.onTrue := Branch.ext_marked same
  cases tree
  cases other
  rw [mk.injEq]
  exact ⟨started, untouched⟩

end Tree

/-- The tree has gained the mark at the position, if it did not hold it already. -/
structure Tree.Gains (tree : Tree) (path : List Bool) (mark : Mark) (grown : Tree) : Prop where
  onFalse : grown.onFalse = tree.onFalse
  marked : ∀ other, grown.marked other = if other = path then some mark else tree.marked other

theorem Tree.Gains.of_marked {tree : Tree} {path : List Bool} {mark : Mark} (here : tree.marked path = some mark) :
    tree.Gains path mark tree where
  onFalse := rfl
  marked other := by
    split
    · next same => rw [same, here]
    · rfl

theorem Tree.Gains.put {tree : Tree} {path : List Bool} (place : (tree.at? path).isSome = true)
    (unmarked : tree.marked path = none) (mark : Mark) : tree.Gains path mark (tree.put path mark.branch) where
  onFalse := rfl
  marked := tree.marked_put (Branch.follow_of_unmarked place unmarked) mark

namespace Pass

variable {pass : Pass} {tree : Tree}

/-- The pass behind one more test, which it has added to the tree or found there. -/
def past (pass : Pass) (text : String) (found : List Atom) : Pass :=
  { pass.along [(text, bit pass.assignment pass.nextDepth)] with discovered := pass.discovered ++ found }

@[simp] theorem past_answers (pass : Pass) (text : String) (found : List Atom) :
    (pass.past text found).answers = pass.answers ++ [bit pass.assignment pass.nextDepth] :=
  pass.along_answers _

theorem read_over (closed : pass.active = false) (test : Test) :
    pass.read tree test = .error (.passOver test.text) := by
  rw [read, closed]
  rfl

theorem read_eq (active : pass.active = true) (test : Test) :
    pass.read tree test =
      match tree.marked pass.answers with
      | some (.test atom) =>
          if atom.text = test.text then
            .ok { tree, pass := pass.past test.text [], answer := bit pass.assignment pass.nextDepth }
          else .error (.readOther test.text atom.text atom.depth)
      | some (.result value) => .error (.readAfterResult test.text value pass.nextDepth)
      | none =>
          if pass.capacity < pass.nextDepth then .error (.tooDeep test.text pass.nextDepth pass.capacity)
          else .ok {
            tree := tree.put pass.answers (Mark.test (pass.newAtom test)).branch
            pass := pass.past test.text [pass.newAtom test]
            answer := bit pass.assignment pass.nextDepth } := by
  rw [read, if_pos active, Tree.marked, Branch.marked, Tree.at?]
  rcases tree.onTrue.follow pass.answers with _ | _ | _ | _
  all_goals simp [Branch.mark?, advance, past, along, newAtom, Mark.branch]

theorem resolve_eq (result : Bool) :
    pass.resolve tree result =
      match tree.marked pass.answers with
      | some (.test atom) => .error (.returnedEarly atom.text atom.depth)
      | some (.result existing) =>
          if existing = result then .ok tree
          else .error (.returnedOther result existing (tree.atomBefore pass.answers).text
            (tree.atomBefore pass.answers).depth)
      | none => .ok (tree.put pass.answers (Mark.result result).branch) := by
  rw [resolve, Tree.marked, Branch.marked, Tree.at?]
  rcases tree.onTrue.follow pass.answers with _ | _ | _ | _
  all_goals rfl

end Pass

end Extension.Decision
