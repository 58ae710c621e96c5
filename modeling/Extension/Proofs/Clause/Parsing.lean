import Extension.Proofs.Clause.Cut
import Extension.Proofs.Clause.Operand

namespace Extension.Clause

open Text

/-! Which clauses are read, and as what.

A clause is read when each of its pieces denotes an expression, and is refused for the first piece that does
not.  The expressions are joined from the left, "and" before "or": the reader folds them as it goes, while
`joined` first collects the conjunctions.
-/

def leftNested (how : Connective) (first : Expr) (rest : List Expr) : Expr :=
  rest.foldl (.connective how) first

/-- What follows an operand: the rest of its own conjunction, and the conjunctions behind it. -/
def conjunctions : List (Connective × Expr) → List Expr × List (Expr × List Expr)
  | [] => ([], [])
  | (.both, next) :: more => (next :: (conjunctions more).1, (conjunctions more).2)
  | (.either, next) :: more => ([], (next, (conjunctions more).1) :: (conjunctions more).2)

/-- The disjunction of the conjunctions that a sequence of operands makes. -/
def joined (first : Expr) (more : List (Connective × Expr)) : Expr :=
  leftNested .either (leftNested .both first (conjunctions more).1)
    ((conjunctions more).2.map fun conjunction => leftNested .both conjunction.1 conjunction.2)

/-- The operands behind the signs denote the expressions behind the same signs. -/
def DenoteAll (pieces : List (Connective × List Char)) (operands : List (Connective × Expr)) : Prop :=
  List.Forall₂ (fun piece operand => piece.1 = operand.1 ∧ Denotes (strip piece.2) operand.2) pieces operands

/-- The first piece that denotes nothing, and what is said about it. -/
inductive Spoils (pieces : List (List Char)) (fault : SyntaxFault) (message : String) : Prop
  | intro {before after : List (List Char)} {piece bare : List Char} {count : Nat}
      (split : pieces = before ++ piece :: after) (good : ∀ earlier ∈ before, ∃ expr, Denotes (strip earlier) expr)
      (negated : Negated count (strip piece) bare) (refused : Refused bare fault message) : Spoils pieces fault message

namespace Spoils

variable {piece : List Char} {pieces : List (List Char)} {fault : SyntaxFault} {message : String}

theorem here {count : Nat} {bare : List Char} (negated : Negated count (strip piece) bare)
    (refused : Refused bare fault message) : Spoils (piece :: pieces) fault message :=
  .intro (List.nil_append _).symm (by simp) negated refused

theorem cons {expr : Expr} (denotes : Denotes (strip piece) expr) (spoils : Spoils pieces fault message) :
    Spoils (piece :: pieces) fault message := by
  obtain ⟨rfl, good, negated, refused⟩ := spoils
  refine .intro (List.cons_append ..).symm ?_ negated refused
  rw [List.forall_mem_cons]
  exact ⟨⟨expr, denotes⟩, good⟩

theorem not_denote (spoils : Spoils pieces fault message) :
    ¬ ∀ piece ∈ pieces, ∃ expr, Denotes (strip piece) expr := by
  obtain @⟨before, after, piece, bare, count, rfl, _, negated, refused⟩ := spoils
  intro all
  obtain ⟨_, @⟨otherCount, otherBare, expr, otherNegated, spells⟩⟩ := all piece (by simp)
  have start := (trimmed_strip piece).1
  have same := (negated.negations start).symm.trans (otherNegated.negations start)
  cases same
  exact refused.not_spells expr spells

/-- Only operands are ever refused. -/
theorem reachable (spoils : Spoils pieces fault message) :
    fault ≠ .unexpectedEnd ∧ (∀ how, fault ≠ .missingOperand how) ∧ ∀ rest, fault ≠ .unexpectedRest rest := by
  obtain ⟨_, _, _, refused⟩ := spoils
  cases refused <;> exact ⟨nofun, fun _ => nofun, fun _ => nofun⟩

end Spoils

/-! Joining -/

/-- The fold of the reader, from the disjunction and the conjunction read so far. -/
def joinRest (done : Option Expr) (current : Expr) : List (Connective × Expr) → Expr
  | [] => orElse done current
  | (.both, next) :: more => joinRest done (.connective .both current next) more
  | (.either, next) :: more => joinRest (some (orElse done current)) next more

theorem joinRest_eq (done : Option Expr) (current : Expr) (more : List (Connective × Expr)) :
    joinRest done current more =
      leftNested .either (orElse done (leftNested .both current (conjunctions more).1))
        ((conjunctions more).2.map fun conjunction => leftNested .both conjunction.1 conjunction.2) := by
  induction more generalizing done current with
  | nil => rfl
  | cons joint more ih =>
      obtain ⟨how, next⟩ := joint
      cases how with
      | both => exact ih done (.connective .both current next)
      | either => exact ih (some (orElse done current)) next

theorem joinRest_none (first : Expr) (more : List (Connective × Expr)) :
    joinRest none first more = joined first more :=
  joinRest_eq none first more

/-! Reading -/

def tailOf (pieces : List (Connective × List Char)) : List Lexeme :=
  pieces.flatMap fun piece => [.joint piece.1, .operand (strip piece.2)]

/-- One more operand moves on the fold and the reader alike. -/
theorem parseRest_joint (how : Connective) {text : List Char} {expr : Expr} (read : parseOperand text = .ok expr)
    (done : Option Expr) (current : Expr) :
    ∃ nextDone nextCurrent,
      (∀ rest, parseRest done current (.joint how :: .operand text :: rest) = parseRest nextDone nextCurrent rest) ∧
      ∀ more, joinRest done current ((how, expr) :: more) = joinRest nextDone nextCurrent more := by
  cases how with
  | both => exact ⟨done, .connective .both current expr, fun rest => by simp only [parseRest, read], fun _ => rfl⟩
  | either => exact ⟨some (orElse done current), expr, fun rest => by simp only [parseRest, read], fun _ => rfl⟩

theorem parseRest_cases (pieces : List (Connective × List Char)) (done : Option Expr) (current : Expr) :
    (∃ operands, DenoteAll pieces operands ∧
      parseRest done current (tailOf pieces) = .ok (joinRest done current operands)) ∨
    ∃ fault, Spoils (pieces.map Prod.snd) fault fault.message ∧
      parseRest done current (tailOf pieces) = .error fault := by
  induction pieces generalizing done current with
  | nil => exact .inl ⟨[], .nil, rfl⟩
  | cons head pieces ih =>
      obtain ⟨how, piece⟩ := head
      have unfolded : tailOf ((how, piece) :: pieces) = .joint how :: .operand (strip piece) :: tailOf pieces := rfl
      rw [unfolded, List.map_cons]
      rcases parseOperand_cases (trimmed_strip piece).1 with
        ⟨expr, denotes, read⟩ | ⟨count, bare, fault, negated, refused, failed⟩
      · obtain ⟨nextDone, nextCurrent, reader, fold⟩ := parseRest_joint how read done current
        rw [reader]
        rcases ih nextDone nextCurrent with ⟨operands, denote, whole⟩ | ⟨fault, spoils, failed⟩
        · refine .inl ⟨(how, expr) :: operands, .cons ⟨rfl, denotes⟩ denote, ?_⟩
          rw [whole, fold]
        · exact .inr ⟨fault, spoils.cons denotes, failed⟩
      · refine .inr ⟨fault, .here negated refused, ?_⟩
        simp only [parseRest, failed]

/-- A clause that is not blank is read when all its pieces denote something, and refused for the first that
does not. -/
theorem parse_cases {clause : String} (written : strip clause.toList ≠ []) {first : List Char}
    {more : List (Connective × List Char)} (cut : Cut clause.toList first more) :
    (∃ expr operands, Denotes (strip first) expr ∧ DenoteAll more operands ∧
      parse clause = .ok (joined expr operands)) ∨
    ∃ fault, Spoils (first :: more.map Prod.snd) fault fault.message ∧ parse clause = .error ⟨fault, clause⟩ := by
  have pieced : lexemes clause.toList = .operand (strip first) :: tailOf more := by
    rw [lexemes, cut_iff.mp cut]
    rfl
  rw [parse, if_neg written, pieced, parseLexemes]
  rcases parseOperand_cases (trimmed_strip first).1 with
    ⟨expr, denotes, read⟩ | ⟨count, bare, fault, negated, refused, failed⟩
  · simp only [read]
    rcases parseRest_cases more none expr with ⟨operands, denote, whole⟩ | ⟨fault, spoils, failed⟩
    · exact .inl ⟨expr, operands, denotes, denote, by rw [whole, joinRest_none]; rfl⟩
    · exact .inr ⟨fault, spoils.cons denotes, by rw [failed]; rfl⟩
  · simp only [failed]
    exact .inr ⟨fault, .here negated refused, rfl⟩

theorem Denotes.unique {text : List Char} {expr other : Expr} (start : ∀ c, text.head? = some c → isBlank c = false)
    (denotes : Denotes text expr) (same : Denotes text other) : expr = other :=
  Except.ok.inj ((denotes.parseOperand start).symm.trans (same.parseOperand start))

theorem DenoteAll.unique {pieces : List (Connective × List Char)} {operands others : List (Connective × Expr)}
    (denote : DenoteAll pieces operands) (same : DenoteAll pieces others) : operands = others := by
  induction denote generalizing others with
  | nil =>
      cases same
      rfl
  | @cons piece operand _ _ head _ ih =>
      cases same with
      | @cons _ other _ _ otherHead rest =>
          obtain rfl := ih rest
          have here : operand = other := by
            refine Prod.ext (head.1.symm.trans otherHead.1) ?_
            exact head.2.unique (trimmed_strip piece.2).1 otherHead.2
          rw [here]

theorem DenoteAll.denote {pieces : List (Connective × List Char)} {operands : List (Connective × Expr)}
    (denote : DenoteAll pieces operands) : ∀ piece ∈ pieces.map Prod.snd, ∃ expr, Denotes (strip piece) expr := by
  induction denote with
  | nil => simp
  | cons head _ ih =>
      rw [List.map_cons, List.forall_mem_cons]
      exact ⟨⟨_, head.2⟩, ih⟩

theorem parse_blank {clause : String} (blank : strip clause.toList = []) :
    parse clause = .ok (.literal (.bool false)) := by
  rw [parse, if_pos blank]

/-! Clauses that read as a single test -/

theorem leftNested_connective (how : Connective) (first : Expr) {rest : List Expr} (more : rest ≠ []) :
    ∃ left right, leftNested how first rest = .connective how left right := by
  obtain ⟨init, last, rfl⟩ := List.eq_nil_or_concat rest |>.resolve_left more
  exact ⟨leftNested how first init, last, by simp [leftNested]⟩

/-- Several operands are never joined to a single test. -/
theorem joined_connective (first : Expr) {operands : List (Connective × Expr)} (more : operands ≠ []) :
    ∃ how left right, joined first operands = .connective how left right := by
  by_cases groups : (conjunctions operands).2 = []
  · have own : (conjunctions operands).1 ≠ [] := by
      match operands with
      | (.both, next) :: rest => exact List.cons_ne_nil _ _
      | (.either, next) :: rest => cases groups
    obtain ⟨left, right, nested⟩ := leftNested_connective .both first own
    exact ⟨.both, left, right, by rw [joined, groups, nested]; rfl⟩
  · have behind : (conjunctions operands).2.map (fun group => leftNested .both group.1 group.2) ≠ [] := by
      simpa using groups
    obtain ⟨left, right, nested⟩ := leftNested_connective .either _ behind
    exact ⟨.either, left, right, nested⟩

/-- A clause that reads as a single test holds no sign, and spells the test. -/
theorem parse_single {clause text : String} {expr : Expr} (read : parse clause = .ok expr)
    (test : expr.atomText? = some text) :
    Spells (strip clause.toList) expr ∧ ∀ how : Connective, ¬ Holds how.sign.toList clause.toList := by
  by_cases blank : strip clause.toList = []
  · rw [parse_blank blank] at read
    cases read
    cases test
  obtain ⟨first, more, cut⟩ : ∃ first more, Cut clause.toList first more := ⟨_, _, cut_pieces clause.toList⟩
  rcases parse_cases blank cut with ⟨head, operands, denotes, denote, joins⟩ | ⟨fault, _, failed⟩
  · obtain rfl := Except.ok.inj (read.symm.trans joins)
    have alone : operands = [] := by
      by_contra more
      obtain ⟨how, left, right, connective⟩ := joined_connective head more
      rw [connective] at test
      cases test
    subst alone
    cases denote
    cases cut with
    | whole uncut =>
        generalize strip clause.toList = written at denotes ⊢
        obtain ⟨negated, spells⟩ := denotes
        cases negated with
        | none free => exact ⟨spells, uncut⟩
        | sign => cases test
  · rw [failed] at read
    cases read

theorem IsTest.parseOperand {text : List Char} {expr : Expr} (test : IsTest text) (spells : Spells text expr) :
    parseOperand text = .ok expr := by
  simp only [Clause.parseOperand, test.negations, spells.parseAtom]
  rfl

theorem IsTest.parseOperand_not {text : List Char} {expr : Expr} (test : IsTest text) (spells : Spells text expr) :
    Clause.parseOperand ('!' :: text) = .ok (.negation expr) := by
  simp only [Clause.parseOperand, Clause.negations, test.negations, ↓reduceIte, spells.parseAtom]
  rfl

theorem IsTest.parse {clause : String} {expr : Expr} (test : IsTest clause.toList)
    (spells : Spells clause.toList expr) : parse clause = .ok expr := by
  have whole := test.isWhole
  rw [Clause.parse, if_neg (strip_ne_nil whole.some whole.lexemes), whole.lexemes]
  simp only [parseLexemes, test.parseOperand spells]
  rfl

/-- Reading accepts exactly the clauses of which each piece denotes something. -/
theorem parse_iff_grammar (clause : String) :
    (strip clause.toList ≠ [] → ∃ first more, Cut clause.toList first more ∧
      ((∃ expr, parse clause = .ok expr) ↔
        ∀ piece ∈ first :: more.map Prod.snd, ∃ expr, Denotes (strip piece) expr) ∧
      (∀ expr, parse clause = .ok expr ↔ ∃ head operands,
        Denotes (strip first) head ∧ DenoteAll more operands ∧ expr = joined head operands) ∧
      (∀ error, parse clause = .error error →
        error.clause = clause ∧ Spoils (first :: more.map Prod.snd) error.fault error.fault.message)) ∧
    ∀ error, parse clause = .error error →
      error.fault ≠ .unexpectedEnd ∧ (∀ how, error.fault ≠ .missingOperand how) ∧
        ∀ rest, error.fault ≠ .unexpectedRest rest := by
  by_cases blank : strip clause.toList = []
  · refine ⟨fun written => absurd blank written, fun error failed => ?_⟩
    rw [parse_blank blank] at failed
    cases failed
  have cut := cut_pieces clause.toList
  rcases parse_cases blank cut with ⟨head, operands, denotes, denote, read⟩ | ⟨fault, spoils, failed⟩
  · have noError (error : SyntaxError) : parse clause ≠ .error error := by
      rw [read]
      exact nofun
    refine ⟨fun _ => ⟨_, _, cut, ⟨fun _ => ?_, fun _ => ⟨_, read⟩⟩, fun expr => ⟨?_, ?_⟩, ?_⟩, ?_⟩
    · exact List.forall_mem_cons.mpr ⟨⟨head, denotes⟩, denote.denote⟩
    · intro other
      obtain rfl := Except.ok.inj (read.symm.trans other)
      exact ⟨head, operands, denotes, denote, rfl⟩
    · rintro ⟨otherHead, others, otherDenotes, otherDenote, rfl⟩
      rw [read, denotes.unique (trimmed_strip _).1 otherDenotes, denote.unique otherDenote]
    · exact fun error failed => absurd failed (noError error)
    · exact fun error failed => absurd failed (noError error)
  · have noExpr (expr : Expr) : parse clause ≠ .ok expr := by
      rw [failed]
      exact nofun
    refine ⟨fun _ => ⟨_, _, cut, ⟨?_, fun all => absurd all spoils.not_denote⟩, fun expr => ⟨?_, ?_⟩, ?_⟩, ?_⟩
    · exact fun ⟨expr, read⟩ => absurd read (noExpr expr)
    · exact fun read => absurd read (noExpr expr)
    · rintro ⟨head, operands, denotes, denote, _⟩
      exact absurd (List.forall_mem_cons.mpr ⟨⟨head, denotes⟩, denote.denote⟩) spoils.not_denote
    · intro error other
      obtain rfl := Except.error.inj (failed.symm.trans other)
      exact ⟨rfl, spoils⟩
    · intro error other
      obtain rfl := Except.error.inj (failed.symm.trans other)
      exact spoils.reachable

theorem mixed_clause_denotes :
    strip "a ~= x && ! b|| ! !true".toList ≠ [] ∧ ∃ first more, Cut "a ~= x && ! b|| ! !true".toList first more ∧
      ∀ piece ∈ first :: more.map Prod.snd, ∃ expr, Denotes (strip piece) expr := by
  have written : strip "a ~= x && ! b|| ! !true".toList ≠ [] := by decide
  obtain ⟨first, more, cut, accepted, _⟩ := (parse_iff_grammar "a ~= x && ! b|| ! !true").1 written
  exact ⟨written, first, more, cut, accepted.mp ⟨_, rfl⟩⟩

end Extension.Clause
