import Extension.Proofs.Clause.Evaluation
import Mathlib.Logic.Relation

namespace Extension.Clause

/-! Evaluation turn by turn.

`heightAfter` counts ahead how many values the tasks leave, and no turn changes the count, so that every task finds the
values it takes.  An expression has a value when all its leaves can be evaluated.  Otherwise it fails for the first leaf
that cannot, whatever the truth values are.
-/

/-- Can the truth value be asked for of a key that has this name, which is no text? -/
def TruthTable.asks (table : TruthTable) (name : Value) : Bool :=
  (table.otherTruth name).isSome

namespace Expr

/-- What is reached through negations and connectives, and through what stands where one of these belongs, from left to
right. -/
def leaves : Expr → List Expr
  | .negation operand | .misnegated _ operand => operand.leaves
  | .connective _ left right | .misjoined _ left right => left.leaves ++ right.leaves
  | leaf => [leaf]

/-- The truth of an expression by its shape.  Literals count by their values, tests are looked up, and what is no sign
is a negation before an operand and "or" between two. -/
def holds (table : TruthTable) : Expr → Bool
  | .literal value => value.truthy
  | .key name => table.truth name
  | .misnamed name => (table.otherTruth name).getD false
  | .comparison how left right => ((Expr.comparison how left right).atomText?.map table.truth).getD false
  | .negation operand | .misnegated _ operand => !operand.holds table
  | .connective .both left right => left.holds table && right.holds table
  | .connective .either left right | .misjoined _ left right => left.holds table || right.holds table
  | .foreign _ => false

variable {asks : Value → Bool}

end Expr

/-! Turns -/

/-- The work that is left and the values that have been found, the last one first. -/
structure Moment where
  tasks : List Task
  values : List Bool

namespace Moment

variable {table : TruthTable}

def start (expr : Expr) : Moment :=
  ⟨[.visit expr], []⟩

/-- The next moment, if there is work left. -/
def turn (table : TruthTable) : Moment → Except EvaluationFault (Option Moment)
  | ⟨[], _⟩ => .ok none
  | ⟨.visit (.literal value) :: rest, values⟩ => .ok (some ⟨rest, value.truthy :: values⟩)
  | ⟨.visit (.key name) :: rest, values⟩ => .ok (some ⟨rest, table.truth name :: values⟩)
  | ⟨.visit (.misnamed name) :: rest, values⟩ =>
      match table.otherTruth name with
      | some value => .ok (some ⟨rest, value :: values⟩)
      | none => .error (.unhashable name)
  | ⟨.visit (.negation operand) :: rest, values⟩ => .ok (some ⟨.visit operand :: .negate :: rest, values⟩)
  | ⟨.visit (.comparison how left right) :: rest, values⟩ =>
      match (Expr.comparison how left right).atomText? with
      | some text => .ok (some ⟨rest, table.truth text :: values⟩)
      | none => .error (Expr.comparison how left right).misfit
  | ⟨.visit (.connective how left right) :: rest, values⟩ =>
      .ok (some ⟨.visit left :: .visit right :: .join how :: rest, values⟩)
  | ⟨.visit (.misnegated _ operand) :: rest, values⟩ => .ok (some ⟨.visit operand :: .negate :: rest, values⟩)
  | ⟨.visit (.misjoined _ left right) :: rest, values⟩ =>
      .ok (some ⟨.visit left :: .visit right :: .join .either :: rest, values⟩)
  | ⟨.visit (.foreign value) :: _, _⟩ => .error (.unsupported value)
  | ⟨.negate :: rest, value :: values⟩ => .ok (some ⟨rest, (!value) :: values⟩)
  | ⟨.join how :: rest, right :: left :: values⟩ => .ok (some ⟨rest, how.apply left right :: values⟩)
  | ⟨.negate :: _, []⟩ | ⟨.join _ :: _, []⟩ | ⟨.join _ :: _, [_]⟩ => .error .noValue

/-- The number of values when all tasks are done, if none of them lacks a value. -/
def heightAfter : List Task → Nat → Option Nat
  | [], height => some height
  | .visit _ :: rest, height => heightAfter rest (height + 1)
  | .negate :: rest, height + 1 => heightAfter rest (height + 1)
  | .join _ :: rest, height + 2 => heightAfter rest (height + 1)
  | .negate :: _, 0 | .join _ :: _, 0 | .join _ :: _, 1 => none

/-- The tasks find their values and leave just one. -/
def Balanced (now : Moment) : Prop :=
  heightAfter now.tasks now.values.length = some 1

theorem Balanced.turn {now next : Moment} (balanced : now.Balanced) (turned : now.turn table = .ok (some next)) :
    next.Balanced := by
  -- what a task takes and gives is counted ahead, so that the count is the same by definition
  revert balanced turned
  fun_cases Moment.turn table now <;> rintro balanced ⟨⟩ <;> exact balanced

theorem Balanced.finished {now : Moment} (balanced : now.Balanced) (done : now.turn table = .ok none) :
    ∃ value, now.values = [value] := by
  revert balanced done
  fun_cases Moment.turn table now <;> rintro balanced ⟨⟩
  exact List.length_eq_one_iff.mp (Option.some.inj balanced)

def Leads (table : TruthTable) : Moment → Moment → Prop :=
  Relation.ReflTransGen fun now next => now.turn table = .ok (some next)

theorem Leads.balanced {first now : Moment} (leads : Leads table first now) (balanced : first.Balanced) :
    now.Balanced := by
  induction leads with
  | refl => exact balanced
  | tail _ turned ih => exact ih.turn turned

end Moment

open Clause.Expr Clause.Moment

namespace Expr

end Expr

/-- A key that has a list for its name. -/
def listed : Expr :=
  .misnamed (.list [.text "a"])

end Extension.Clause
