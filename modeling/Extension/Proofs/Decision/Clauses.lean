import Extension.Proofs.Decision.Joining
import Extension.Proofs.Decision.Walk

namespace Extension.Decision

open Clause

/-! What the clauses of a tree say.

A truth assignment satisfies one of them just when it leads to a true result, also where a literal was left
out: beside a plainly true side the other one need not exclude it.
-/

namespace Branch

theorem isTrue_iff {branch : Branch} : branch.isTrue = true ↔ branch = .result true := by
  cases branch with
  | unresolved => simp [isTrue]
  | node => simp [isTrue]
  | result value => cases value <;> simp [isTrue]

theorem clausesBelow_isTrue {branch : Branch} (plain : branch.isTrue = true) (literals : List Literal) :
    clausesBelow literals branch = [] := by
  rw [isTrue_iff.mp plain, clausesBelow]
  nofun

theorem decide_isTrue {branch : Branch} (plain : branch.isTrue = true) (truth : Truth) :
    branch.decide truth = true := by
  rw [isTrue_iff.mp plain, decide]

theorem all_holds_concat (truth : Truth) (literals : List Literal) (text : String) (outcome : Bool) :
    (literals ++ [Literal.mk text outcome]).all (·.holds truth) =
      (literals.all (·.holds truth) && (truth text == outcome)) := by
  rw [List.all_append, List.all_cons, List.all_nil, Bool.and_true, Literal.holds]

section

variable {onTrue onFalse : Branch} {literals : List Literal} {atom : Atom} {outcome : Bool}

theorem ownClause_neither (left : onTrue.isTrue = false) (right : onFalse.isTrue = false) :
    ownClause literals atom onTrue onFalse = [] := by
  simp [ownClause, left, right]

theorem ownClause_onTrue (left : onTrue.isTrue = true) (right : onFalse.isTrue = false) :
    ownClause literals atom onTrue onFalse = [literals ++ [⟨atom.text, true⟩]] := by
  simp [ownClause, left, right]

theorem ownClause_onFalse (left : onTrue.isTrue = false) (right : onFalse.isTrue = true) :
    ownClause literals atom onTrue onFalse = [literals ++ [⟨atom.text, false⟩]] := by
  simp [ownClause, left, right]

theorem ownClause_both (left : onTrue.isTrue = true) (right : onFalse.isTrue = true) :
    ownClause literals atom onTrue onFalse = [literals] := by
  simp [ownClause, left, right]

theorem extend_neither (left : onTrue.isTrue = false) (right : onFalse.isTrue = false) :
    extend literals atom onTrue onFalse outcome = literals ++ [⟨atom.text, outcome⟩] := by
  simp [extend, left, right]

theorem extend_onTrue (left : onTrue.isTrue = true) : extend literals atom onTrue onFalse outcome = literals := by
  simp [extend, left]

theorem extend_onFalse (right : onFalse.isTrue = true) : extend literals atom onTrue onFalse outcome = literals := by
  simp [extend, right]

end

/-- Some clause below holds just when the literals in front of it do and the branch leads to true. -/
theorem clausesBelow_holds (truth : Truth) {branch : Branch} (notPlain : branch.isTrue = false)
    (literals : List Literal) :
    (clausesBelow literals branch).any (·.all (·.holds truth)) =
      (literals.all (·.holds truth) && branch.decide truth) := by
  induction branch generalizing literals with
  | unresolved => simp [clausesBelow, decide]
  | result value =>
      cases value with
      | true => cases notPlain
      | false => simp [clausesBelow, decide]
  | node atom onTrue onFalse trueIH falseIH =>
      rw [clausesBelow, List.any_append, List.any_append, decide]
      -- a plainly true side is covered by the clause of the node itself and has none of its own
      cases left : onTrue.isTrue <;> cases right : onFalse.isTrue
      · rw [trueIH left, falseIH right, ownClause_neither left right, extend_neither left right,
          extend_neither left right, all_holds_concat, all_holds_concat]
        cases truth atom.text <;> simp
      · rw [trueIH left, clausesBelow_isTrue right, decide_isTrue right, ownClause_onFalse left right,
          extend_onFalse right, List.any_cons, all_holds_concat]
        cases truth atom.text <;> cases literals.all (·.holds truth) <;> simp
      · rw [falseIH right, clausesBelow_isTrue left, decide_isTrue left, ownClause_onTrue left right,
          extend_onTrue left, List.any_cons, all_holds_concat]
        cases truth atom.text <;> cases literals.all (·.holds truth) <;> simp
      · rw [clausesBelow_isTrue left, clausesBelow_isTrue right, decide_isTrue left, decide_isTrue right,
          ownClause_both left right]
        simp

/-- The tests of all nodes can be written in a clause. -/
def Conforms : Branch → Prop
  | .node atom onTrue onFalse => IsTest atom.text.toList ∧ onTrue.Conforms ∧ onFalse.Conforms
  | _ => True

theorem Conforms.clausesBelow {branch : Branch} (conforms : branch.Conforms) {literals : List Literal}
    (conform : ∀ literal ∈ literals, literal.Conforms) :
    ∀ clause ∈ Branch.clausesBelow literals branch, ∀ literal ∈ clause, literal.Conforms := by
  induction branch generalizing literals with
  | unresolved => simp [Branch.clausesBelow]
  | result value => simp [Branch.clausesBelow]
  | node atom onTrue onFalse trueIH falseIH =>
      obtain ⟨test, trueSide, falseSide⟩ := conforms
      have longer (outcome : Bool) : ∀ literal ∈ literals ++ [⟨atom.text, outcome⟩], literal.Conforms := by
        rw [List.forall_mem_append]
        exact ⟨conform, fun literal member => by rw [List.mem_singleton.mp member]; exact test⟩
      have extended (outcome : Bool) :
          ∀ literal ∈ extend literals atom onTrue onFalse outcome, literal.Conforms := by
        rw [extend]
        split
        · exact conform
        · exact longer outcome
      rw [Branch.clausesBelow, List.forall_mem_append, List.forall_mem_append]
      refine ⟨⟨?_, trueIH trueSide (extended true)⟩, falseIH falseSide (extended false)⟩
      rw [ownClause]
      split
      · exact fun clause member => by rw [List.mem_singleton.mp member]; exact conform
      · split
        · exact fun clause member => by rw [List.mem_singleton.mp member]; exact longer true
        · split
          · exact fun clause member => by rw [List.mem_singleton.mp member]; exact longer false
          · simp

def Everywhere (value : Bool) (branch : Branch) : Prop :=
  ∀ found ∈ branch.ends, found.2 = some value

theorem everywhere_node {value : Bool} {atom : Atom} {onTrue onFalse : Branch} :
    (Branch.node atom onTrue onFalse).Everywhere value ↔ onTrue.Everywhere value ∧ onFalse.Everywhere value := by
  simp only [Everywhere, ends, List.forall_mem_append, List.forall_mem_map, End.below]

theorem everywhere_result {value found : Bool} : (Branch.result found).Everywhere value ↔ found = value := by
  simp [Everywhere, ends]

theorem clausesBelow_eq_nil {branch : Branch} (complete : branch.Complete) (notPlain : branch.isTrue = false)
    (literals : List Literal) : clausesBelow literals branch = [] ↔ branch.Everywhere false := by
  induction branch generalizing literals with
  | unresolved => exact complete.elim
  | result value =>
      cases value with
      | true => cases notPlain
      | false => simp [clausesBelow, everywhere_result]
  | node atom onTrue onFalse trueIH falseIH =>
      have never {side : Branch} (plain : side.isTrue = true) : ¬ side.Everywhere false := by
        rw [isTrue_iff.mp plain, everywhere_result]
        exact Bool.noConfusion
      rw [clausesBelow, everywhere_node]
      cases left : onTrue.isTrue <;> cases right : onFalse.isTrue
      · rw [← trueIH complete.1 left (extend literals atom onTrue onFalse true),
          ← falseIH complete.2 right (extend literals atom onTrue onFalse false), ownClause_neither left right]
        simp
      -- with a plainly true side there is a clause, and the side does not have the result false
      · simp [ownClause_onFalse left right, never right]
      · simp [ownClause_onTrue left right, never left]
      · simp [ownClause_both left right, never left]

/-- A result that is true, or a node with such a result on one side and a branch of this kind on the other. -/
def Unconditional : Branch → Prop
  | .unresolved => False
  | .result value => value = true
  | .node _ onTrue onFalse =>
      (onTrue.isTrue = true ∧ onFalse.Unconditional) ∨ (onFalse.isTrue = true ∧ onTrue.Unconditional)

/-- One of the clauses of a branch has no literals just when nothing is in front of it and it is unconditional. -/
theorem nil_mem_clausesBelow {branch : Branch} (notPlain : branch.isTrue = false) (literals : List Literal) :
    [] ∈ clausesBelow literals branch ↔ literals = [] ∧ branch.Unconditional := by
  induction branch generalizing literals with
  | unresolved => simp [clausesBelow, Unconditional]
  | result value =>
      cases value with
      | true => cases notPlain
      | false => simp [clausesBelow, Unconditional]
  | node atom onTrue onFalse trueIH falseIH =>
      rw [clausesBelow, List.mem_append, List.mem_append, Unconditional]
      cases left : onTrue.isTrue <;> cases right : onFalse.isTrue
      · rw [trueIH left, falseIH right]
        simp [ownClause, extend, left, right]
      · rw [trueIH left, clausesBelow_isTrue right]
        simp [ownClause, extend, left, right]
      · rw [falseIH right, clausesBelow_isTrue left]
        simp [ownClause, extend, left, right]
      · rw [clausesBelow_isTrue left, clausesBelow_isTrue right, isTrue_iff.mp left, isTrue_iff.mp right]
        simp [ownClause, isTrue, Unconditional, eq_comm]

def Straight : Branch → Prop
  | .node _ onTrue onFalse => ¬ (onTrue.isNode = true ∧ onFalse.isNode = true) ∧ onTrue.Straight ∧ onFalse.Straight
  | _ => True

theorem unconditional_iff {branch : Branch} : branch.Unconditional ↔ branch.Everywhere true ∧ branch.Straight := by
  induction branch with
  | unresolved => simp [Unconditional, Everywhere, ends]
  | result value => simp [Unconditional, everywhere_result, Straight]
  | node atom onTrue onFalse trueIH falseIH =>
      rw [Unconditional, everywhere_node, Straight, trueIH, falseIH]
      constructor
      · rintro (⟨plain, always, straight⟩ | ⟨plain, always, straight⟩)
        · rw [isTrue_iff.mp plain]
          simp [everywhere_result, isNode, always, straight, Straight]
        · rw [isTrue_iff.mp plain]
          simp [everywhere_result, isNode, always, straight, Straight]
      · rintro ⟨⟨trueAlways, falseAlways⟩, apart, trueStraight, falseStraight⟩
        have plain {side : Branch} (always : side.Everywhere true) (leaf : side.isNode ≠ true) :
            side.isTrue = true := by
          cases side with
          | unresolved => simp [Everywhere, ends] at always
          | result value =>
              rw [everywhere_result.mp always]
              rfl
          | node => exact absurd rfl leaf
        by_cases inner : onTrue.isNode = true
        · exact .inr ⟨plain falseAlways fun outer => apart ⟨inner, outer⟩, trueAlways, trueStraight⟩
        · exact .inl ⟨plain trueAlways inner, falseAlways, falseStraight⟩

end Branch

/-- The stack lets out what the recursion finds. -/
theorem clausesFrom_eq (stack : List Pending) :
    clausesFrom stack = stack.flatMap fun pending => pending.branch.clausesBelow pending.literals := by
  induction stack using clausesFrom.induct with
  | case1 => rw [clausesFrom, List.flatMap_nil]
  | case2 atom onTrue onFalse literals stack ih =>
      rw [clausesFrom, ih]
      simp [Branch.clausesBelow]
  | case3 literals stack ih =>
      rw [clausesFrom, ih]
      simp [Branch.clausesBelow]
  | case4 value literals stack ih =>
      rw [clausesFrom, ih]
      simp [Branch.clausesBelow]

namespace Tree

variable {tree : Tree}

theorem literalClauses_isTrue (plain : tree.onTrue.isTrue = true) : tree.literalClauses = [[]] := by
  rw [literalClauses, Branch.isTrue_iff.mp plain]

theorem literalClauses_eq (notPlain : tree.onTrue.isTrue = false) :
    tree.literalClauses = tree.onTrue.clausesBelow [] := by
  rw [literalClauses]
  cases branch : tree.onTrue with
  | unresolved => simp [Branch.clausesBelow]
  | result value =>
      cases value with
      | true =>
          rw [branch] at notPlain
          cases notPlain
      | false => simp [Branch.clausesBelow]
  | node atom onTrue onFalse => simp [clausesFrom_eq]

theorem literalClauses_holds (tree : Tree) (truth : Truth) :
    tree.literalClauses.any (·.all (·.holds truth)) = tree.onTrue.decide truth := by
  cases plain : tree.onTrue.isTrue with
  | true => rw [literalClauses_isTrue plain, Branch.decide_isTrue plain]; rfl
  | false => rw [literalClauses_eq plain, Branch.clausesBelow_holds truth plain]; rfl

theorem literalClauses_conform (conforms : tree.onTrue.Conforms) :
    ∀ clause ∈ tree.literalClauses, ∀ literal ∈ clause, literal.Conforms := by
  cases plain : tree.onTrue.isTrue with
  | true => simp [literalClauses_isTrue plain]
  | false =>
      rw [literalClauses_eq plain]
      exact conforms.clausesBelow (by simp)

theorem literalClauses_eq_nil (complete : tree.onTrue.Complete) :
    tree.literalClauses = [] ↔ tree.onTrue.Everywhere false := by
  cases plain : tree.onTrue.isTrue with
  | true => simp [literalClauses_isTrue plain, Branch.isTrue_iff.mp plain, Branch.everywhere_result]
  | false => rw [literalClauses_eq plain, Branch.clausesBelow_eq_nil complete plain]

theorem nil_mem_literalClauses : [] ∈ tree.literalClauses ↔ tree.onTrue.Unconditional := by
  cases plain : tree.onTrue.isTrue with
  | true => simp [literalClauses_isTrue plain, Branch.isTrue_iff.mp plain, Branch.Unconditional]
  | false => simp [literalClauses_eq plain, Branch.nil_mem_clausesBelow plain]

theorem conjunction_eq_empty {clause : List Literal} (conform : ∀ literal ∈ clause, literal.Conforms) :
    conjunction clause = "" ↔ clause = [] := by
  constructor
  · intro empty
    cases clause with
    | nil => rfl
    | cons literal literals =>
        have ends (text : List Char) (whole : IsWhole text) : lexemes (text ++ []) = [.operand text] := by
          rw [List.append_nil, whole.lexemes]
        have cut := lexemes_conjunction conform ends
        have first := (conform literal (List.mem_cons_self ..)).whole
        rw [empty] at cut
        exact absurd rfl (strip_ne_nil first.some cut)
  · rintro rfl
    rfl

/-- A clause without literals is the one that is written as nothing. -/
theorem empty_mem_clauses (conforms : tree.onTrue.Conforms) : "" ∈ tree.clauses ↔ [] ∈ tree.literalClauses := by
  rw [clauses, List.mem_map]
  constructor
  · rintro ⟨clause, member, nothing⟩
    rwa [(conjunction_eq_empty (literalClauses_conform conforms clause member)).mp nothing] at member
  · exact fun member => ⟨[], member, rfl⟩

/-- The clause is the word `true` for an unconditional tree, and the joined clauses for any other. -/
theorem clause_eq (conforms : tree.onTrue.Conforms) :
    (tree.onTrue.Unconditional ∧ tree.clause = "true") ∨
      (¬ tree.onTrue.Unconditional ∧ tree.clause = orSign.intercalate (tree.literalClauses.map conjunction)) := by
  have empty : tree.clauses.contains "" = true ↔ tree.onTrue.Unconditional := by
    rw [List.contains_iff_mem, empty_mem_clauses conforms, nil_mem_literalClauses]
  by_cases unconditional : tree.onTrue.Unconditional
  · exact .inl ⟨unconditional, by rw [clause, if_pos (empty.mpr unconditional)]⟩
  · exact .inr ⟨unconditional, by rw [clause, if_neg fun found => unconditional (empty.mp found), clauses]⟩

theorem clauses_some (conditional : ¬ tree.onTrue.Unconditional) : ∀ clause ∈ tree.literalClauses, clause ≠ [] := by
  rintro clause member rfl
  exact conditional (nil_mem_literalClauses.mp member)

/-- The clause reads as the word that is always true, or as the disjunction of what its clauses read as. -/
theorem clause_spelled (conforms : tree.onTrue.Conforms) :
    [] ∈ tree.literalClauses ∧ parse tree.clause = .ok (.literal (.bool true)) ∨
      [] ∉ tree.literalClauses ∧ ∃ read, ReadAll tree.literalClauses read ∧
        parse tree.clause = .ok (disjoined (read.map conjoined)) := by
  rcases clause_eq conforms with ⟨unconditional, written⟩ | ⟨conditional, written⟩
  · exact .inl ⟨nil_mem_literalClauses.mpr unconditional, by rw [written]; rfl⟩
  · have conform := literalClauses_conform conforms
    obtain ⟨read, all⟩ := readAll_exists conform
    refine .inr ⟨fun member => conditional (nil_mem_literalClauses.mp member), read, all, ?_⟩
    rw [written, parse_clauses (clauses_some conditional) conform all]

/-- The clause reads back as an expression that holds where the tree leads to true. -/
theorem clause_reads (conforms : tree.onTrue.Conforms) :
    ∃ expr, parse tree.clause = .ok expr ∧ Means expr fun truth => tree.onTrue.decide truth := by
  rcases clause_spelled conforms with ⟨unconditional, parsed⟩ | ⟨_, read, all, parsed⟩
  · refine ⟨_, parsed, fun truth _ => ?_⟩
    have always : tree.literalClauses.any (·.all (·.holds truth)) = true :=
      List.any_eq_true.mpr ⟨[], unconditional, rfl⟩
    exact congrArg Except.ok (always.symm.trans (tree.literalClauses_holds truth))
  · exact ⟨_, parsed, fun truth _ => by rw [value_disjoined all, tree.literalClauses_holds]⟩

/-- Joined clauses begin with a literal, which neither nothing nor the word `true` does. -/
theorem joined_ne {clauses : List (List Literal)} (any : clauses ≠ []) (some : ∀ clause ∈ clauses, clause ≠ [])
    (conform : ∀ clause ∈ clauses, ∀ literal ∈ clause, literal.Conforms) :
    orSign.intercalate (clauses.map conjunction) ≠ "" ∧ orSign.intercalate (clauses.map conjunction) ≠ "true" := by
  match clauses with
  | [] => contradiction
  | [] :: clauses => exact absurd rfl (some [] (List.mem_cons_self ..))
  | (literal :: literals) :: clauses =>
      have cut := lexemes_clauses (fun found member => some found (List.mem_cons_of_mem _ member)) conform
      have first := conform _ (List.mem_cons_self ..) literal (List.mem_cons_self ..)
      constructor
      · intro empty
        rw [empty] at cut
        exact strip_ne_nil first.whole.some cut rfl
      · intro word
        rw [word] at cut
        have same : Lexeme.operand "true".toList = literal.operand := (List.cons.inj cut).1
        exact first.free (Lexeme.operand.inj same).symm

theorem clause_eq_true (conforms : tree.onTrue.Conforms) : tree.clause = "true" ↔ tree.onTrue.Unconditional := by
  rcases clause_eq conforms with ⟨unconditional, written⟩ | ⟨conditional, written⟩
  · simp [unconditional, written]
  · rw [written]
    refine iff_of_false ?_ conditional
    by_cases none : tree.literalClauses = []
    · rw [none]
      decide
    · exact (joined_ne none (clauses_some conditional) (literalClauses_conform conforms)).2

theorem clause_eq_empty (conforms : tree.onTrue.Conforms) (complete : tree.onTrue.Complete) :
    tree.clause = "" ↔ tree.onTrue.Everywhere false := by
  rw [← literalClauses_eq_nil complete]
  rcases clause_eq conforms with ⟨unconditional, written⟩ | ⟨conditional, written⟩
  · rw [written]
    refine iff_of_false (by decide) fun none => ?_
    have member := nil_mem_literalClauses.mpr unconditional
    rw [none] at member
    cases member
  · rw [written]
    constructor
    · intro empty
      by_contra some
      exact (joined_ne some (clauses_some conditional) (literalClauses_conform conforms)).1 empty
    · intro none
      rw [none]
      rfl

end Tree

end Extension.Decision
