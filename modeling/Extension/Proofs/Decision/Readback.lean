import Extension.Proofs.Decision.Clauses

namespace Extension.Decision

open Clause

/-! What a clause reads as, and the clauses of the tree found in it again.

The parts of a disjunction that is joined from the left are its last operand and the parts before it, and the same is true
of conjunctions.  What is read of a clause has the clauses of the tree as its parts, and their literals as the parts of
these.
-/

/-- The operands of an expression that is joined from the left by a connective. -/
def parts (how : Connective) : Expr → List Expr
  | .connective other left right =>
      if other = how then parts how left ++ [right] else [.connective other left right]
  | expr => [expr]

def literal? : Expr → Option Literal
  | .negation atom => atom.atomText?.map (⟨·, false⟩)
  | atom => atom.atomText?.map (⟨·, true⟩)

/-- The literals of an expression, clause by clause, if it has nothing else. -/
def literals? (expr : Expr) : Option (List (List Literal)) :=
  (parts .either expr).mapM fun clause => (parts .both clause).mapM literal?

section Parts

variable {how other : Connective} {first expr : Expr}

theorem parts_leftNested (rest : List Expr) : parts how (leftNested how first rest) = parts how first ++ rest := by
  induction rest generalizing first with
  | nil => simp [leftNested]
  | cons next rest ih =>
      change parts how (leftNested how (.connective how first next) rest) = _
      rw [ih, parts, if_pos rfl, List.append_assoc, List.singleton_append]

theorem parts_leftNested_other (differ : other ≠ how) (single : parts how first = [first]) (rest : List Expr) :
    parts how (leftNested other first rest) = [leftNested other first rest] := by
  induction rest generalizing first with
  | nil => exact single
  | cons next rest ih => exact ih (by rw [parts, if_neg differ])

theorem parts_atom {text : String} (named : expr.atomText? = some text) : parts how expr = [expr] := by
  cases expr with
  | connective => cases named
  | _ => rfl

end Parts

section Literals

variable {literal : Literal} {expr : Expr}

theorem Literal.ReadsAs.parts (reads : literal.ReadsAs expr) (how : Connective) :
    Decision.parts how expr = [expr] := by
  cases reads with
  | test _ _ named => exact parts_atom named
  | negated => rfl

theorem Literal.ReadsAs.literal? (reads : literal.ReadsAs expr) : Decision.literal? expr = some literal := by
  obtain ⟨text, outcome⟩ := literal
  cases reads with
  | test asked _ named =>
      cases asked
      cases expr with
      | negation => cases named
      | _ => rw [Decision.literal?, named, Option.map_some]; nofun
  | negated asked _ named =>
      cases asked
      rw [Decision.literal?, named, Option.map_some]

theorem mapM_eq_some {α β : Type} {f : β → Option α} {found : List α} {sources : List β}
    (all : List.Forall₂ (fun value source => f source = some value) found sources) :
    sources.mapM f = some found := by
  induction all with
  | nil => rfl
  | cons head _ ih => simp [List.mapM_cons, head, ih]

theorem parts_conjoined {literals : List Literal} {exprs : List Expr} (some : literals ≠ [])
    (read : List.Forall₂ Literal.ReadsAs literals exprs) :
    parts .either (conjoined exprs) = [conjoined exprs] ∧
      (parts .both (conjoined exprs)).mapM literal? = .some literals := by
  cases read with
  | nil => contradiction
  | cons head tail =>
      refine ⟨parts_leftNested_other (by decide) (head.parts .either) _, ?_⟩
      rw [conjoined, parts_leftNested, head.parts]
      exact mapM_eq_some ((List.Forall₂.cons head tail).imp fun _ _ reads => reads.literal?)

/-- The literals of the clauses are found again. -/
theorem literals?_disjoined {clauses : List (List Literal)} {read : List (List Expr)} (any : clauses ≠ [])
    (some : ∀ clause ∈ clauses, clause ≠ []) (all : ReadAll clauses read) :
    literals? (disjoined (read.map conjoined)) = .some clauses := by
  cases all with
  | nil => contradiction
  | @cons clause exprs clauses read head tail =>
      have whole : List.Forall₂ (fun clause source => (parts .both source).mapM literal? = .some clause)
          (clause :: clauses) ((exprs :: read).map conjoined) :=
        List.forall₂_map_right_iff.mpr (((List.forall₂_and_left _ _).mpr ⟨some, .cons head tail⟩).imp
          fun _ _ reads => (parts_conjoined reads.1 reads.2).2)
      rw [literals?, List.map_cons, disjoined, parts_leftNested,
        (parts_conjoined (some _ (List.mem_cons_self ..)) head).1]
      exact mapM_eq_some whole

end Literals

/-! Every clause follows a path -/

namespace Branch

/-- The literals that say which path is taken. -/
def literalsOn (branch : Branch) (path : List Bool) : List Literal :=
  (branch.trail path).map fun met => ⟨met.1, met.2⟩

section

variable {atom : Atom} {onTrue onFalse : Branch} {literals clause : List Literal}

theorem literalsOn_node (answer : Bool) (path : List Bool) :
    (Branch.node atom onTrue onFalse).literalsOn (answer :: path) =
      [⟨atom.text, answer⟩] ++ (side onTrue onFalse answer).literalsOn path := by
  rw [literalsOn, trail_node]
  rfl

theorem extend_sublist (outcome : Bool) :
    ∃ own, extend literals atom onTrue onFalse outcome = literals ++ own ∧ own.Sublist [⟨atom.text, outcome⟩] := by
  rw [extend]
  split
  · exact ⟨[], (List.append_nil _).symm, List.nil_sublist _⟩
  · exact ⟨_, rfl, .refl _⟩

theorem ownClause_sublist (member : clause ∈ ownClause literals atom onTrue onFalse) :
    ∃ answer own, side onTrue onFalse answer = .result true ∧ clause = literals ++ own ∧
      own.Sublist [⟨atom.text, answer⟩] := by
  cases left : onTrue.isTrue with
  | true =>
      cases right : onFalse.isTrue with
      | true =>
          rw [ownClause_both left right, List.mem_singleton] at member
          exact ⟨true, [], isTrue_iff.mp left, by simp [member], List.nil_sublist _⟩
      | false =>
          rw [ownClause_onTrue left right, List.mem_singleton] at member
          exact ⟨true, _, isTrue_iff.mp left, member, .refl _⟩
  | false =>
      cases right : onFalse.isTrue with
      | true =>
          rw [ownClause_onFalse left right, List.mem_singleton] at member
          exact ⟨false, _, isTrue_iff.mp right, member, .refl _⟩
      | false => simp [ownClause_neither left right] at member

end

/-- A clause adds to the literals in front of it some of those on a path to a true result, in their order. -/
theorem clausesBelow_sublist {branch : Branch} {literals clause : List Literal}
    (member : clause ∈ clausesBelow literals branch) :
    ∃ path kept, branch.follow path = some (.result true) ∧ clause = literals ++ kept ∧
      kept.Sublist (branch.literalsOn path) := by
  induction branch generalizing literals with
  | unresolved => simp [clausesBelow] at member
  | result value => simp [clausesBelow] at member
  | node atom onTrue onFalse trueIH falseIH =>
      -- a side goes on from the literals so far and the one of this node, unless that one is dropped
      have inside (answer : Bool) {path : List Bool} {kept : List Literal}
          (ends : (side onTrue onFalse answer).follow path = some (.result true))
          (same : clause = extend literals atom onTrue onFalse answer ++ kept)
          (sub : kept.Sublist ((side onTrue onFalse answer).literalsOn path)) :
          ∃ path kept, (Branch.node atom onTrue onFalse).follow path = some (.result true) ∧
            clause = literals ++ kept ∧ kept.Sublist ((Branch.node atom onTrue onFalse).literalsOn path) := by
        obtain ⟨own, extended, below⟩ := @extend_sublist atom onTrue onFalse literals answer
        refine ⟨answer :: path, own ++ kept, by rw [follow_node, ends], by rw [same, extended, List.append_assoc], ?_⟩
        rw [literalsOn_node]
        exact below.append sub
      rw [clausesBelow, List.mem_append, List.mem_append] at member
      rcases member with (own | onTrueSide) | onFalseSide
      · obtain ⟨answer, own, plain, same, sub⟩ := ownClause_sublist own
        refine ⟨[answer], own, by rw [follow_node, plain]; rfl, same, ?_⟩
        rw [literalsOn_node]
        exact sub.trans (List.sublist_append_left _ _)
      · obtain ⟨path, kept, ends, same, sub⟩ := trueIH onTrueSide
        exact inside true ends same sub
      · obtain ⟨path, kept, ends, same, sub⟩ := falseIH onFalseSide
        exact inside false ends same sub

end Branch

namespace Tree

theorem literalClauses_sublist {tree : Tree} {clause : List Literal} (member : clause ∈ tree.literalClauses) :
    ∃ path, tree.onTrue.follow path = some (.result true) ∧ clause.Sublist (tree.onTrue.literalsOn path) := by
  cases plain : tree.onTrue.isTrue with
  | true =>
      rw [literalClauses_isTrue plain, List.mem_singleton] at member
      exact ⟨[], by rw [Branch.isTrue_iff.mp plain]; rfl, by simp [member]⟩
  | false =>
      rw [literalClauses_eq plain] at member
      obtain ⟨path, kept, ends, rfl, sub⟩ := Branch.clausesBelow_sublist member
      exact ⟨path, ends, sub⟩

/-- The clause of a tree reads as false if there is no clause, as true if one of them asks for nothing, and otherwise as
the disjunction of the conjunctions of what the literals read as.  The literals are found in it again, clause by clause,
and those of one clause lie on one path in their order. -/
theorem parse_clause_reads_back (tree : Tree) (conforms : tree.onTrue.Conforms) :
    (tree.clauses = [] → parse tree.clause = .ok (.literal (.bool false))) ∧
    ("" ∈ tree.clauses → parse tree.clause = .ok (.literal (.bool true))) ∧
    (tree.clauses ≠ [] → "" ∉ tree.clauses → ∃ read, ReadAll tree.literalClauses read ∧
      parse tree.clause = .ok (disjoined (read.map conjoined)) ∧
      literals? (disjoined (read.map conjoined)) = some tree.literalClauses) ∧
    ∀ clause ∈ tree.literalClauses, ∃ path, tree.onTrue.follow path = some (.result true) ∧
      clause.Sublist (tree.onTrue.literalsOn path) := by
  have empty := empty_mem_clauses conforms
  rcases clause_spelled conforms with ⟨unconditional, parsed⟩ | ⟨conditional, read, all, parsed⟩
  · have some : tree.clauses ≠ [] := List.ne_nil_of_mem (empty.mpr unconditional)
    exact ⟨fun none => absurd none some, fun _ => parsed, fun _ absent => absurd (empty.mpr unconditional) absent,
      fun clause member => literalClauses_sublist member⟩
  · refine ⟨fun none => ?_, fun member => absurd (empty.mp member) conditional, fun any _ => ⟨read, all, parsed, ?_⟩,
      fun clause member => literalClauses_sublist member⟩
    · rw [List.map_eq_nil_iff.mp none] at all
      cases all
      exact parsed
    · refine literals?_disjoined (fun none => any ?_) (fun clause member nothing => conditional (nothing ▸ member)) all
      rw [clauses, none, List.map_nil]

/-- A tree whose operands begin and end with the characters that signs are made of. -/
def edged : Tree where
  onTrue := .node ⟨"a == &", 1, "a"⟩ (.node ⟨"k ~= | =!x", 2, "k"⟩ (.result false) (.result true)) (.result false)

theorem edged_reads_back :
    edged.onTrue.Conforms ∧ edged.clauses ≠ [] ∧ "" ∉ edged.clauses ∧ ∃ read, ReadAll edged.literalClauses read ∧
      parse "a == & && !k ~= | =!x" = .ok (disjoined (read.map conjoined)) ∧
      literals? (disjoined (read.map conjoined)) = some [[⟨"a == &", true⟩, ⟨"k ~= | =!x", false⟩]] := by
  have ampersand : IsTest ("a" ++ " == " ++ "&").toList :=
    .comparison .equals (show IsKey "a".toList by decide) (show IsOperand "&".toList by decide)
  have bar : IsTest "k ~= | =!x".toList :=
    .comparison .matches (show IsKey "k".toList by decide) (show IsOperand "| =!x".toList by decide)
  have conforms : edged.onTrue.Conforms := ⟨ampersand, ⟨bar, trivial, trivial⟩, trivial⟩
  have found : edged.literalClauses = [[⟨"a == &", true⟩, ⟨"k ~= | =!x", false⟩]] := literalClauses_eq rfl
  have clauses : edged.clauses = ["a == & && !k ~= | =!x"] := by rw [Tree.clauses, found]; rfl
  have written : edged.clause = "a == & && !k ~= | =!x" := by rw [clause, clauses]; rfl
  have any : edged.clauses ≠ [] := by rw [clauses]; decide
  have asked : "" ∉ edged.clauses := by rw [clauses]; decide
  obtain ⟨read, all, parsed, literals⟩ := (parse_clause_reads_back edged conforms).2.2.1 any asked
  exact ⟨conforms, any, asked, read, all, written ▸ parsed, found ▸ literals⟩

end Tree

end Extension.Decision
