import Extension.Clause.Evaluation

namespace Extension.Clause

/-! The stack of work reaches the value that the recursion defines. -/

variable (truth : Truth) (other : OtherTruth)

/-- Visiting an expression puts its value on the stack, or fails as the recursion does. -/
theorem runTasks_visit (expr : Expr) (rest : List Task) (values : List Bool) :
    runTasks truth other (.visit expr :: rest) values =
      match expr.value truth other with
      | .error fault => .error fault
      | .ok value => runTasks truth other rest (value :: values) := by
  induction expr generalizing rest values with
  | literal value => rw [runTasks, Expr.value]
  | key name => rw [runTasks, Expr.value]
  | foreign value => rw [runTasks, Expr.value]
  | misnamed name =>
      rw [runTasks, Expr.value]
      cases other name <;> rfl
  | comparison how left right =>
      rw [runTasks, Expr.value]
      cases (Expr.comparison how left right).atomText? <;> rfl
  | negation operand ih | misnegated sign operand ih =>
      rw [runTasks, ih, Expr.value]
      cases operand.value truth other with
      | error fault => rfl
      | ok value => simp only [runTasks]
  | connective how left right leftIH rightIH | misjoined sign left right leftIH rightIH =>
      rw [runTasks, leftIH, Expr.value]
      cases left.value truth other with
      | error fault => rfl
      | ok first =>
          simp only [rightIH]
          cases right.value truth other with
          | error fault => rfl
          | ok second => simp only [runTasks, Connective.apply]

theorem evaluate_eq_value (expr : Expr) : evaluate expr truth other = expr.value truth other := by
  rw [evaluate, runTasks_visit]
  cases expr.value truth other with
  | error fault => rfl
  | ok value => simp only [runTasks]

end Extension.Clause
