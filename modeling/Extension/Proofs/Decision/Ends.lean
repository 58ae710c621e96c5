import Mathlib.Algebra.Group.Nat.Defs
import Extension.Decision.Tree

namespace Extension.Decision

/-! The ends of a tree: its results and the positions that no pass has ended at.

A tree grows at one unresolved end at a time.  `Branch.ends_put` says what growth does to the list of all
ends: the end that grows is replaced, where it stands, by those of what is put there.
-/

/-- The tests on the way to a position, each with its answer. -/
abbrev Trail := List (String × Bool)

namespace Trail

def answers (trail : Trail) : List Bool :=
  trail.map Prod.snd

@[simp] theorem answers_nil : answers [] = [] := rfl

@[simp] theorem answers_cons (met : String × Bool) (trail : Trail) :
    answers (met :: trail) = met.2 :: answers trail := rfl

@[simp] theorem answers_append (first second : Trail) :
    answers (first ++ second) = first.answers ++ second.answers :=
  List.map_append

@[simp] theorem answers_length (trail : Trail) : trail.answers.length = trail.length :=
  List.length_map ..

end Trail

/-- An end of a tree: the way to it, and the result there, if there is one. -/
abbrev End := Trail × Option Bool

/-- The end, seen from a place further up. -/
def End.below (trail : Trail) (found : End) : End :=
  (trail ++ found.1, found.2)

@[simp] theorem End.below_nil : End.below [] = id := rfl

@[simp] theorem End.below_comp (first second : Trail) :
    End.below first ∘ End.below second = End.below (first ++ second) := by
  funext found
  simp [End.below]

namespace Branch

def side (onTrue onFalse : Branch) (answer : Bool) : Branch :=
  if answer then onTrue else onFalse

def atEnd : Option Bool → Branch
  | none => .unresolved
  | some value => .result value

/-- All ends of a branch, from its true side to its false side. -/
def ends : Branch → List End
  | .unresolved => [([], none)]
  | .result value => [([], some value)]
  | .node atom onTrue onFalse =>
      onTrue.ends.map (End.below [(atom.text, true)]) ++ onFalse.ends.map (End.below [(atom.text, false)])

/-- The tests on a path, as far as the path stays in the tree. -/
def trail : Branch → List Bool → Trail
  | .node atom onTrue onFalse, answer :: path =>
      (atom.text, answer) :: if answer then onTrue.trail path else onFalse.trail path
  | _, _ => []
termination_by structural _ path => path

theorem follow_node (atom : Atom) (onTrue onFalse : Branch) (answer : Bool) (path : List Bool) :
    (Branch.node atom onTrue onFalse).follow (answer :: path) = (side onTrue onFalse answer).follow path := by
  cases answer <;> rfl

theorem trail_node (atom : Atom) (onTrue onFalse : Branch) (answer : Bool) (path : List Bool) :
    (Branch.node atom onTrue onFalse).trail (answer :: path) =
      (atom.text, answer) :: (side onTrue onFalse answer).trail path := by
  cases answer <;> rfl

theorem node_of_follow_cons {branch found : Branch} {answer : Bool} {path : List Bool}
    (reached : branch.follow (answer :: path) = some found) :
    ∃ atom onTrue onFalse, branch = .node atom onTrue onFalse ∧
      (side onTrue onFalse answer).follow path = some found := by
  cases branch with
  | unresolved => contradiction
  | result value => contradiction
  | node atom onTrue onFalse => exact ⟨atom, onTrue, onFalse, rfl, by rw [← reached, follow_node]⟩

theorem trail_answers {branch found : Branch} {path : List Bool}
    (reached : branch.follow path = some found) : (branch.trail path).answers = path := by
  induction path generalizing branch with
  | nil => cases branch <;> rfl
  | cons answer path ih =>
      obtain ⟨atom, onTrue, onFalse, rfl, inside⟩ := node_of_follow_cons reached
      rw [trail_node, Trail.answers_cons, ih inside]

/-- Growing twice along one path is growing once by the grown branch. -/
theorem put_put {branch found : Branch} {path more : List Bool} (new newer : Branch)
    (reached : branch.follow path = some found) :
    (branch.put path new).put (path ++ more) newer = branch.put path (new.put more newer) := by
  induction path generalizing branch with
  | nil => cases branch <;> rfl
  | cons answer path ih =>
      obtain ⟨atom, onTrue, onFalse, rfl, inside⟩ := node_of_follow_cons reached
      cases answer with
      | true => simpa [put, side] using ih inside
      | false => simpa [put, side] using ih inside

/-- The ends before and after the one that grows stay as they are. -/
theorem ends_put {branch : Branch} {path : List Bool} (opened : branch.follow path = some .unresolved) :
    ∃ before after, branch.ends = before ++ (branch.trail path, none) :: after ∧
      ∀ new, (branch.put path new).ends = before ++ new.ends.map (End.below (branch.trail path)) ++ after := by
  induction path generalizing branch with
  | nil =>
      cases opened
      exact ⟨[], [], rfl, fun new => by cases new <;> simp [put, trail]⟩
  | cons answer path ih =>
      obtain ⟨atom, onTrue, onFalse, rfl, inside⟩ := node_of_follow_cons opened
      obtain ⟨before, after, split, grown⟩ := ih inside
      rw [trail_node]
      cases answer with
      | true =>
          refine ⟨before.map (End.below [(atom.text, true)]),
            after.map (End.below [(atom.text, true)]) ++ onFalse.ends.map (End.below [(atom.text, false)]),
            ?_, fun new => ?_⟩
          · have split : onTrue.ends = before ++ (onTrue.trail path, none) :: after := split
            simp [ends, split, End.below, side]
          · have grown : (onTrue.put path new).ends = _ := grown new
            simp [put, ends, grown, side, List.map_map]
      | false =>
          refine ⟨onTrue.ends.map (End.below [(atom.text, true)]) ++ before.map (End.below [(atom.text, false)]),
            after.map (End.below [(atom.text, false)]), ?_, fun new => ?_⟩
          · have split : onFalse.ends = before ++ (onFalse.trail path, none) :: after := split
            simp [ends, split, End.below, side]
          · have grown : (onFalse.put path new).ends = _ := grown new
            simp [put, ends, grown, side, List.map_map]

/-- An end is the way to an unresolved position or to a result. -/
theorem mem_ends_iff {branch : Branch} {way : Trail} {found : Option Bool} :
    (way, found) ∈ branch.ends ↔
      branch.follow way.answers = some (atEnd found) ∧ branch.trail way.answers = way := by
  induction branch generalizing way with
  | unresolved =>
      cases way with
      | nil => cases found <;> simp [ends, follow, atEnd, trail]
      | cons met way => simp [ends, follow]
  | result value =>
      cases way with
      | nil => cases found <;> simp [ends, follow, atEnd, trail, eq_comm]
      | cons met way => simp [ends, follow]
  | node atom onTrue onFalse trueIH falseIH =>
      cases way with
      | nil => cases found <;> simp [ends, follow, atEnd, End.below]
      | cons met way =>
          obtain ⟨text, answer⟩ := met
          have member : ((text, answer) :: way, found) ∈ (Branch.node atom onTrue onFalse).ends ↔
              atom.text = text ∧ (way, found) ∈ (side onTrue onFalse answer).ends := by
            cases answer <;> simp [ends, End.below, side] <;> grind
          rw [member, Trail.answers_cons, follow_node, trail_node]
          cases answer with
          | true => simp only [side, if_true, trueIH, List.cons.injEq, Prod.mk.injEq]; grind
          | false => simp only [side, Bool.false_eq_true, if_false, falseIH, List.cons.injEq, Prod.mk.injEq]; grind

theorem ends_length (branch : Branch) : branch.ends.length = branch.size + 1 := by
  induction branch with
  | unresolved => rfl
  | result value => rfl
  | node atom onTrue onFalse trueIH falseIH =>
      simp only [ends, size, List.length_append, List.length_map, trueIH, falseIH]
      omega

theorem ends_distinct (branch : Branch) : (branch.ends.map fun found => found.1.answers).Nodup := by
  induction branch with
  | unresolved => simp [ends]
  | result value => simp [ends]
  | node atom onTrue onFalse trueIH falseIH =>
      have further (answer : Bool) (found : List End) (distinct : (found.map fun e => e.1.answers).Nodup) :
          ((found.map (End.below [(atom.text, answer)])).map fun e => e.1.answers).Nodup := by
        rw [List.map_map]
        refine List.pairwise_map.mpr ((List.pairwise_map.mp distinct).imp fun different same => different ?_)
        exact (List.cons.inj same).2
      simp only [ends, List.map_append]
      refine List.nodup_append.mpr ⟨further true _ trueIH, further false _ falseIH, ?_⟩
      -- the first answer tells the two sides apart
      simp only [List.map_map, List.mem_map]
      rintro _ ⟨left, _, rfl⟩ _ ⟨right, _, rfl⟩ same
      exact Bool.noConfusion (List.cons.inj same).1

def Complete : Branch → Prop
  | .unresolved => False
  | .result _ => True
  | .node _ onTrue onFalse => onTrue.Complete ∧ onFalse.Complete

theorem Complete.side {atom : Atom} {onTrue onFalse : Branch} (complete : (Branch.node atom onTrue onFalse).Complete)
    (answer : Bool) : (Branch.side onTrue onFalse answer).Complete := by
  cases answer with
  | true => exact complete.1
  | false => exact complete.2

theorem complete_iff {branch : Branch} : branch.Complete ↔ ∀ found ∈ branch.ends, found.2 ≠ none := by
  induction branch with
  | unresolved => simp [Complete, ends]
  | result value => simp [Complete, ends]
  | node atom onTrue onFalse trueIH falseIH =>
      simp only [Complete, ends, List.forall_mem_append, List.forall_mem_map, End.below, trueIH, falseIH]

/-- The tests of each path are numbered in order, the first one `depth + 1`, and none is above the capacity. -/
def Numbered (capacity : Nat) : Nat → Branch → Prop
  | depth, .node atom onTrue onFalse =>
      atom.depth = depth + 1 ∧ depth < capacity ∧
        onTrue.Numbered capacity (depth + 1) ∧ onFalse.Numbered capacity (depth + 1)
  | _, _ => True

theorem Numbered.side {capacity depth : Nat} {atom : Atom} {onTrue onFalse : Branch} (answer : Bool)
    (numbered : (Branch.node atom onTrue onFalse).Numbered capacity depth) :
    (side onTrue onFalse answer).Numbered capacity (depth + 1) := by
  obtain ⟨_, _, trueSide, falseSide⟩ := numbered
  cases answer with
  | true => exact trueSide
  | false => exact falseSide

theorem Numbered.length_le {capacity depth : Nat} {branch found : Branch} {path : List Bool}
    (numbered : branch.Numbered capacity depth) (room : depth ≤ capacity)
    (reached : branch.follow path = some found) : depth + path.length ≤ capacity := by
  induction path generalizing branch depth with
  | nil => exact room
  | cons answer path ih =>
      obtain ⟨atom, onTrue, onFalse, rfl, inside⟩ := node_of_follow_cons reached
      have deeper := ih (numbered.side answer) numbered.2.1 inside
      simp only [List.length_cons]
      omega

theorem Numbered.depth_at {capacity depth : Nat} {branch : Branch} {path : List Bool} {atom : Atom}
    {onTrue onFalse : Branch} (numbered : branch.Numbered capacity depth)
    (reached : branch.follow path = some (.node atom onTrue onFalse)) : atom.depth = (depth + path.length + 1 : Nat) := by
  induction path generalizing branch depth with
  | nil =>
      cases reached
      exact numbered.1
  | cons answer path ih =>
      obtain ⟨met, metTrue, metFalse, rfl, inside⟩ := node_of_follow_cons reached
      rw [ih (numbered.side answer) inside, List.length_cons, Nat.add_right_comm depth, Nat.add_assoc depth]

theorem Numbered.put {capacity depth : Nat} {branch found new : Branch} {path : List Bool}
    (numbered : branch.Numbered capacity depth) (reached : branch.follow path = some found)
    (fits : new.Numbered capacity (depth + path.length)) :
    (branch.put path new).Numbered capacity depth := by
  induction path generalizing branch depth with
  | nil => cases branch <;> exact fits
  | cons answer path ih =>
      obtain ⟨atom, onTrue, onFalse, rfl, inside⟩ := node_of_follow_cons reached
      have fits : new.Numbered capacity (depth + 1 + path.length) := by
        rwa [Nat.add_assoc, Nat.add_comm 1]
      have grown := ih (numbered.side answer) inside fits
      obtain ⟨number, room, trueSide, falseSide⟩ := numbered
      cases answer with
      | true => exact ⟨number, room, grown, falseSide⟩
      | false => exact ⟨number, room, trueSide, grown⟩

/-- A tree has no more ends than there are combinations of answers within its capacity. -/
theorem Numbered.ends_length_le {capacity depth : Nat} {branch : Branch}
    (numbered : branch.Numbered capacity depth) : branch.ends.length ≤ 2 ^ (capacity - depth) := by
  induction branch generalizing depth with
  | unresolved => exact Nat.one_le_two_pow
  | result value => exact Nat.one_le_two_pow
  | node atom onTrue onFalse trueIH falseIH =>
      obtain ⟨_, room, trueSide, falseSide⟩ := numbered
      have trueEnds := trueIH trueSide
      have falseEnds := falseIH falseSide
      have halves : 2 ^ (capacity - depth) = 2 ^ (capacity - (depth + 1)) * 2 := by
        rw [← Nat.pow_succ, show capacity - depth = capacity - (depth + 1) + 1 by omega]
      simp only [ends, List.length_append, List.length_map]
      omega

end Branch

end Extension.Decision
