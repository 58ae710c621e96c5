import Mathlib.Algebra.Group.Nat.Defs
import Extension.Decision.Repetition

namespace Extension.Decision

/-! Bursts are single steps. -/

variable {α : Type u} {busy : α → Bool} {step : α → α}

theorem repeat_add (f : α → α) (m n : Nat) (state : α) :
    Nat.repeat f (m + n) state = Nat.repeat f m (Nat.repeat f n state) := by
  induction m with
  | zero => simp [Nat.repeat]
  | succ m ih => rw [Nat.add_right_comm, Nat.repeat, Nat.repeat, ih]

theorem repeat_stepIfBusy {state : α} (done : busy state = false) (n : Nat) :
    Nat.repeat (stepIfBusy busy step) n state = state := by
  induction n with
  | zero => rfl
  | succ n ih => rw [Nat.repeat, ih]; simp [stepIfBusy, done]

theorem burst_eq_repeat (height : Nat) (state : α) :
    burst busy step height state = Nat.repeat (stepIfBusy busy step) (2 ^ height) state := by
  induction height generalizing state with
  | zero => rfl
  | succ height ih =>
      unfold burst
      cases work : busy state with
      | false => simp [repeat_stepIfBusy work]
      | true => rw [if_pos rfl, ih, ih, Nat.pow_succ, Nat.mul_two, repeat_add]

/-- Settling is a bounded number of single steps. -/
theorem settle_eq_repeat (count height : Nat) (state : α) :
    settle busy step count height state =
      Nat.repeat (stepIfBusy busy step) (2 ^ (height + count) - 2 ^ height) state := by
  induction count generalizing height state with
  | zero => simp [settle, Nat.repeat]
  | succ count ih =>
      unfold settle
      cases work : busy state with
      | false => simp [repeat_stepIfBusy work]
      | true =>
          have smaller : 2 ^ (height + 1) ≤ 2 ^ (height + 1 + count) :=
            Nat.pow_le_pow_right (by decide) (by omega)
          have total : 2 ^ (height + (count + 1)) - 2 ^ height =
              (2 ^ (height + 1 + count) - 2 ^ (height + 1)) + 2 ^ height := by
            rw [show height + (count + 1) = height + 1 + count by omega]
            rw [Nat.pow_succ 2 height] at smaller ⊢
            omega
          rw [if_pos rfl, ih, burst_eq_repeat, total, repeat_add]

variable {β : Type v} {others : β → Bool} {next : β → β} {related : α → β → Prop}

/-- What a step keeps between two states that are busy together is kept when they settle. -/
theorem settle_related (together : ∀ state other, related state other → busy state = others other)
    (kept : ∀ state other, related state other → busy state = true → related (step state) (next other))
    {state : α} {other : β} (first : related state other) (count height : Nat) :
    related (settle busy step count height state) (settle others next count height other) := by
  have steps (total : Nat) : related (Nat.repeat (stepIfBusy busy step) total state)
      (Nat.repeat (stepIfBusy others next) total other) := by
    induction total with
    | zero => exact first
    | succ total ih =>
        rw [Nat.repeat, Nat.repeat, stepIfBusy, stepIfBusy, ← together _ _ ih]
        split
        · next work => exact kept _ _ ih work
        · exact ih
  rw [settle_eq_repeat, settle_eq_repeat]
  exact steps _

/-- Steps that agree where they are made settle alike. -/
theorem settle_congr {step next : α → α} {invariant : α → Prop}
    (agree : ∀ state, invariant state → busy state = true → next state = step state)
    (kept : ∀ state, invariant state → busy state = true → invariant (step state)) {state : α}
    (first : invariant state) (count height : Nat) :
    settle busy next count height state = settle busy step count height state := by
  let related (state other : α) : Prop := other = state ∧ invariant state
  have together (state other : α) (same : related state other) : busy state = busy other := by rw [same.1]
  have stepped (state other : α) (same : related state other) (work : busy state = true) :
      related (step state) (next other) := by
    obtain ⟨rfl, holds⟩ := same
    exact ⟨agree other holds work, kept other holds work⟩
  have start : related state state := ⟨rfl, first⟩
  exact (settle_related together stepped start count height).1

/-- What a step keeps while there is work is kept when a state settles. -/
theorem settle_kept {invariant : α → Prop}
    (kept : ∀ state, invariant state → busy state = true → invariant (step state)) {state : α} (first : invariant state) (count height : Nat) :
    invariant (settle busy step count height state) := by
  let related (state other : α) : Prop := other = state ∧ invariant state
  have together (state other : α) (same : related state other) : busy state = busy other := by rw [same.1]
  have stepped (state other : α) (same : related state other) (work : busy state = true) :
      related (step state) (step other) := by
    obtain ⟨rfl, holds⟩ := same
    exact ⟨rfl, kept other holds work⟩
  have start : related state state := ⟨rfl, first⟩
  exact (settle_related together stepped start count height).2

end Extension.Decision
