namespace Extension.Decision

/-! Repeating a step while there is work.

The bound on the number of steps is a power of two, far too large to count down from.  `settle` runs
bursts of one, two, four, … steps instead and looks between them whether the work is done.
-/

variable {α : Type u} (busy : α → Bool) (step : α → α)

/-- At most `2 ^ height` steps. -/
def burst : Nat → α → α
  | 0, state => if busy state then step state else state
  | height + 1, state => if busy state then burst height (burst height state) else state

/-- Bursts of rising height, `count` of them, from the given height on. -/
def settle : Nat → Nat → α → α
  | 0, _, state => state
  | count + 1, height, state =>
      if busy state then settle count (height + 1) (burst busy step height state) else state

def stepIfBusy (state : α) : α :=
  if busy state then step state else state

end Extension.Decision
