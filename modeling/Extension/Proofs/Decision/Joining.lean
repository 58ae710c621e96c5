import Extension.Clause.Evaluation
import Extension.Decision.Clauses
import Extension.Proofs.Clause.Parsing
import Mathlib.Data.List.Forall2

namespace Extension.Decision

open Clause

/-! How joined clauses read back.

The lexemes of the joined text are the literals with the signs between them.  Each literal reads as its test or as the
negation of its test, and the parser joins what it reads from the left.
-/

namespace Literal

def holds (truth : Truth) (literal : Literal) : Bool :=
  truth literal.text == literal.outcome

def Conforms (literal : Literal) : Prop :=
  IsTest literal.text.toList

/-- The expressions that a literal can be read as: its test, or the negation of its test. -/
inductive ReadsAs (literal : Literal) : Expr → Prop
  | test {atom : Expr} (asked : literal.outcome = true) (spells : Spells literal.text.toList atom)
      (named : atom.atomText? = some literal.text) : ReadsAs literal atom
  | negated {atom : Expr} (asked : literal.outcome = false) (spells : Spells literal.text.toList atom)
      (named : atom.atomText? = some literal.text) : ReadsAs literal (.negation atom)

theorem display_true {literal : Literal} (asked : literal.outcome = true) :
    literal.display.toList = literal.text.toList := by
  simp [display, asked]

theorem display_false {literal : Literal} (asked : literal.outcome = false) :
    literal.display.toList = '!' :: literal.text.toList := by
  simp [display, asked]

section

variable {literal : Literal} (conforms : literal.Conforms)
include conforms

theorem Conforms.whole : IsWhole literal.display.toList := by
  cases asked : literal.outcome with
  | true => rw [display_true asked]; exact IsTest.isWhole conforms
  | false => rw [display_false asked]; exact IsTest.isWhole_negated conforms

theorem Conforms.free : literal.display.toList ≠ "true".toList := by
  cases asked : literal.outcome with
  | true => rw [display_true asked]; exact fun same => IsTest.free conforms (.inl same)
  | false => simp [display_false asked]

theorem Conforms.reads : ∃ expr, literal.ReadsAs expr := by
  obtain ⟨atom, spells, named⟩ := IsTest.spells conforms
  rw [String.ofList_toList] at named
  cases asked : literal.outcome with
  | true => exact ⟨atom, .test asked spells named⟩
  | false => exact ⟨_, .negated asked spells named⟩

theorem Conforms.parseOperand {expr : Expr} (reads : literal.ReadsAs expr) :
    parseOperand literal.display.toList = .ok expr := by
  cases reads with
  | test asked spells named => rw [display_true asked]; exact IsTest.parseOperand conforms spells
  | negated asked spells named => rw [display_false asked]; exact IsTest.parseOperand_not conforms spells

end

theorem Conforms.all_read {literals : List Literal} (conform : ∀ literal ∈ literals, literal.Conforms) :
    ∃ exprs, List.Forall₂ ReadsAs literals exprs := by
  induction literals with
  | nil => exact ⟨[], .nil⟩
  | cons literal literals ih =>
      obtain ⟨first, rest⟩ := List.forall_mem_cons.mp conform
      obtain ⟨expr, reads⟩ := first.reads
      obtain ⟨exprs, read⟩ := ih rest
      exact ⟨expr :: exprs, .cons reads read⟩

/-- A test that spells its text is looked up by it. -/
theorem ReadsAs.value {literal : Literal} {expr : Expr} (reads : literal.ReadsAs expr) (truth : Truth)
    (other : OtherTruth) : expr.value truth other = .ok (literal.holds truth) := by
  have looked {atom : Expr} (named : atom.atomText? = some literal.text) :
      atom.value truth other = .ok (truth literal.text) := by
    cases atom with
    | key name => rw [Expr.value, Option.some.inj named]
    | comparison how left right => rw [Expr.value, named]
    | _ => cases named
  cases reads with
  | test asked _ named => simp [looked named, holds, asked]
  | negated asked _ named => simp [Expr.value, looked named, holds, asked]

end Literal

namespace Literal

def operand (literal : Literal) : Lexeme :=
  .operand literal.display.toList

def tailLexemes (literals : List Literal) : List Lexeme :=
  literals.flatMap fun literal => [.joint .both, literal.operand]

def clauseLexemes : List (List Literal) → List Lexeme
  | [] => []
  | [] :: clauses => clauseLexemes clauses
  | (literal :: literals) :: clauses =>
      .joint .either :: literal.operand :: tailLexemes literals ++ clauseLexemes clauses

end Literal

open Literal

/-- A conjunction is cut into its literals, whatever comes behind it. -/
theorem lexemes_conjunction {literal : Literal} {literals : List Literal}
    (conform : ∀ found ∈ literal :: literals, found.Conforms) {behind : List Char} {more : List Lexeme}
    (ends : ∀ text, IsWhole text → lexemes (text ++ behind) = .operand text :: more) :
    lexemes ((conjunction (literal :: literals)).toList ++ behind) =
      literal.operand :: tailLexemes literals ++ more := by
  induction literals generalizing literal with
  | nil =>
      have whole := (conform literal (List.mem_singleton_self literal)).whole
      simpa [conjunction, operand, tailLexemes] using ends _ whole
  | cons next literals ih =>
      have whole := (conform literal (List.mem_cons_self ..)).whole
      have split : (conjunction (literal :: next :: literals)).toList ++ behind =
          literal.display.toList ++ ' ' :: Connective.both.sign.toList ++
            ' ' :: ((conjunction (next :: literals)).toList ++ behind) := by
        simp [conjunction, String.intercalate_cons_cons, andSign, Connective.sign]
      rw [split, whole.lexemes_joint, ih fun found member => conform found (List.mem_cons_of_mem _ member)]
      rfl

theorem lexemes_clauses {literal : Literal} {literals : List Literal} {clauses : List (List Literal)}
    (some : ∀ clause ∈ clauses, clause ≠ [])
    (conform : ∀ clause ∈ (literal :: literals) :: clauses, ∀ found ∈ clause, found.Conforms) :
    lexemes (orSign.intercalate (((literal :: literals) :: clauses).map conjunction)).toList =
      literal.operand :: tailLexemes literals ++ clauseLexemes clauses := by
  induction clauses generalizing literal literals with
  | nil =>
      have ends (text : List Char) (whole : IsWhole text) : lexemes (text ++ []) = [.operand text] := by
        rw [List.append_nil, whole.lexemes]
      have cut := lexemes_conjunction (conform _ (List.mem_cons_self ..)) ends
      simpa [clauseLexemes] using cut
  | cons clause clauses ih =>
      cases clause with
      | nil => exact absurd rfl (some [] (List.mem_cons_self ..))
      | cons first rest =>
          have inner := ih (fun found member => some found (List.mem_cons_of_mem _ member))
            (fun found member => conform found (List.mem_cons_of_mem _ member))
          have split : (orSign.intercalate (((literal :: literals) :: (first :: rest) :: clauses).map conjunction)).toList =
              (conjunction (literal :: literals)).toList ++ (' ' :: Connective.either.sign.toList ++
                ' ' :: (orSign.intercalate (((first :: rest) :: clauses).map conjunction)).toList) := by
            simp [String.intercalate_cons_cons, orSign, Connective.sign]
          rw [split, lexemes_conjunction (conform _ (List.mem_cons_self ..)) fun text whole => by
            rw [← List.append_assoc, whole.lexemes_joint, inner]]
          rfl

/-- The conjunction of expressions, joined from the left. -/
def conjoined : List Expr → Expr
  | [] => .literal (.bool true)
  | first :: rest => leftNested .both first rest

/-- The disjunction of expressions, joined from the left. -/
def disjoined : List Expr → Expr
  | [] => .literal (.bool false)
  | first :: rest => leftNested .either first rest

/-- What the literals of clauses read as, one by one. -/
abbrev ReadAll (clauses : List (List Literal)) (read : List (List Expr)) : Prop :=
  List.Forall₂ (List.Forall₂ ReadsAs) clauses read

theorem readAll_exists {clauses : List (List Literal)}
    (conform : ∀ clause ∈ clauses, ∀ literal ∈ clause, literal.Conforms) : ∃ read, ReadAll clauses read := by
  induction clauses with
  | nil => exact ⟨[], .nil⟩
  | cons clause clauses ih =>
      obtain ⟨first, rest⟩ := List.forall_mem_cons.mp conform
      obtain ⟨exprs, one⟩ := Conforms.all_read first
      obtain ⟨read, more⟩ := ih rest
      exact ⟨exprs :: read, .cons one more⟩

/-- The literals that follow are joined to the conjunction that is being read. -/
theorem parseRest_conjunction (done : Option Expr) (current : Expr) {literals : List Literal} {exprs : List Expr}
    (conform : ∀ found ∈ literals, found.Conforms) (read : List.Forall₂ ReadsAs literals exprs) (more : List Lexeme) :
    parseRest done current (tailLexemes literals ++ more) = parseRest done (leftNested .both current exprs) more := by
  induction read generalizing current with
  | nil => rfl
  | @cons literal expr literals exprs one _ ih =>
      obtain ⟨first, rest⟩ := List.forall_mem_cons.mp conform
      change parseRest done current (.joint .both :: literal.operand :: (tailLexemes literals ++ more)) = _
      rw [operand, parseRest, first.parseOperand one]
      exact ih (.connective .both current expr) rest

/-- The clauses that follow are joined to the disjunction that has been read. -/
theorem parseRest_clauses (done : Option Expr) (current : Expr) {clauses : List (List Literal)} {read : List (List Expr)}
    (some : ∀ clause ∈ clauses, clause ≠ []) (conform : ∀ clause ∈ clauses, ∀ found ∈ clause, found.Conforms)
    (all : ReadAll clauses read) :
    parseRest done current (clauseLexemes clauses) =
      .ok (leftNested .either (orElse done current) (read.map conjoined)) := by
  induction all generalizing done current with
  | nil => rfl
  | @cons clause exprs clauses read one _ ih =>
      obtain ⟨here, others⟩ := List.forall_mem_cons.mp some
      obtain ⟨firstConform, restConform⟩ := List.forall_mem_cons.mp conform
      cases one with
      | nil => exact absurd rfl here
      | @cons literal expr literals exprs head tail =>
          obtain ⟨literalConforms, literalsConform⟩ := List.forall_mem_cons.mp firstConform
          rw [clauseLexemes, operand, List.cons_append, List.cons_append, parseRest, literalConforms.parseOperand head]
          change parseRest _ expr (tailLexemes literals ++ clauseLexemes clauses) = _
          rw [parseRest_conjunction _ _ literalsConform tail, ih _ _ others restConform]
          rfl

/-- The joined clauses read as the disjunction of the conjunctions of their literals. -/
theorem parse_clauses {clauses : List (List Literal)} {read : List (List Expr)} (some : ∀ clause ∈ clauses, clause ≠ [])
    (conform : ∀ clause ∈ clauses, ∀ found ∈ clause, found.Conforms) (all : ReadAll clauses read) :
    parse (orSign.intercalate (clauses.map conjunction)) = .ok (disjoined (read.map conjoined)) := by
  cases all with
  | nil => rfl
  | @cons clause exprs clauses read one more =>
      obtain ⟨here, others⟩ := List.forall_mem_cons.mp some
      cases one with
      | nil => exact absurd rfl here
      | @cons literal expr literals exprs head tail =>
          have cut := lexemes_clauses others conform
          obtain ⟨firstConform, restConform⟩ := List.forall_mem_cons.mp conform
          obtain ⟨literalConforms, literalsConform⟩ := List.forall_mem_cons.mp firstConform
          rw [parse, if_neg (strip_ne_nil literalConforms.whole.some cut), cut, operand, List.cons_append, parseLexemes,
            literalConforms.parseOperand head]
          change (parseRest none expr (tailLexemes literals ++ clauseLexemes clauses)).mapError _ = _
          rw [parseRest_conjunction _ _ literalsConform tail, parseRest_clauses _ _ others restConform more]
          rfl

/-! What the joined clauses say -/

def Means (expr : Expr) (meaning : Truth → Bool) : Prop :=
  ∀ truth other, expr.value truth other = .ok (meaning truth)

section

variable {truth : Truth} {other : OtherTruth}

/-- The left-nested join of expressions with values has the values joined from the left. -/
theorem value_leftNested (how : Connective) {first : Expr} {value : Bool} (one : first.value truth other = .ok value)
    {rest : List Expr} {values : List Bool}
    (all : List.Forall₂ (fun expr value => expr.value truth other = .ok value) rest values) :
    (leftNested how first rest).value truth other = .ok (values.foldl how.apply value) := by
  induction all generalizing first value with
  | nil => exact one
  | @cons next nextValue rest values head _ ih =>
      have joined : (Expr.connective how first next).value truth other = .ok (how.apply value nextValue) := by
        simp only [Expr.value, one, head]
      exact ih joined

theorem foldl_both (value : Bool) (values : List Bool) :
    values.foldl Connective.both.apply value = (value && values.all id) := by
  induction values generalizing value with
  | nil => simp
  | cons next values ih => rw [List.foldl_cons, ih, List.all_cons, Connective.apply, Bool.and_assoc, id]

theorem foldl_either (value : Bool) (values : List Bool) :
    values.foldl Connective.either.apply value = (value || values.any id) := by
  induction values generalizing value with
  | nil => simp
  | cons next values ih => rw [List.foldl_cons, ih, List.any_cons, Connective.apply, Bool.or_assoc, id]

theorem value_conjoined {literals : List Literal} {exprs : List Expr} (read : List.Forall₂ ReadsAs literals exprs) :
    (conjoined exprs).value truth other = .ok (literals.all (·.holds truth)) := by
  cases read with
  | nil => rfl
  | @cons literal expr literals exprs head tail =>
      have values : List.Forall₂ (fun expr value => expr.value truth other = .ok value) exprs
          (literals.map (·.holds truth)) :=
        List.forall₂_map_right_iff.mpr (tail.imp fun _ _ reads => reads.value truth other).flip
      rw [conjoined, value_leftNested .both (head.value truth other) values, foldl_both, List.all_map]
      rfl

theorem value_disjoined {clauses : List (List Literal)} {read : List (List Expr)} (all : ReadAll clauses read) :
    (disjoined (read.map conjoined)).value truth other = .ok (clauses.any (·.all (·.holds truth))) := by
  cases all with
  | nil => rfl
  | @cons clause exprs clauses read head tail =>
      have values : List.Forall₂ (fun expr value => expr.value truth other = .ok value) (read.map conjoined)
          (clauses.map (·.all (·.holds truth))) :=
        List.forall₂_map_left_iff.mpr (List.forall₂_map_right_iff.mpr
          (tail.imp fun _ _ reads => value_conjoined reads).flip)
      rw [List.map_cons, disjoined, value_leftNested .either (value_conjoined head) values, foldl_either, List.any_map]
      rfl

end

end Extension.Decision
