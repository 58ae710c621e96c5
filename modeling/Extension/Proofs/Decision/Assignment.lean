import Extension.Decision.Exploration

namespace Extension.Decision

/-! Assignments and the paths that they force.

Bit `n` of an assignment answers the `n`-th test of a pass, and bit zero belongs to the root.  So a path of
answers has one assignment that forces it and answers every later test with false.
-/

/-- The assignment that forces a path, and false after it. -/
def assignmentOf : List Bool → Nat
  | [] => 0
  | answer :: path => 2 * (answer.toNat + assignmentOf path)

/-- The answers that an assignment forces on so many tests after the first `depth`. -/
def forced (assignment : Int) (depth : Nat) : Nat → List Bool
  | 0 => []
  | count + 1 => bit assignment (depth + 1) :: forced assignment (depth + 1) count

theorem forced_length (assignment : Int) (depth count : Nat) : (forced assignment depth count).length = count := by
  induction count generalizing depth with
  | zero => rfl
  | succ count ih => rw [forced, List.length_cons, ih]

theorem forced_append (assignment : Int) (depth first second : Nat) :
    forced assignment depth (first + second) =
      forced assignment depth first ++ forced assignment (depth + first) second := by
  induction first generalizing depth with
  | zero => simp [forced]
  | succ first ih =>
      rw [Nat.add_right_comm, forced, ih, forced, List.cons_append]
      simp only [Nat.add_assoc, Nat.add_comm 1]

theorem forced_succ (assignment : Int) (depth count : Nat) :
    forced assignment depth (count + 1) = forced assignment depth count ++ [bit assignment (depth + count + 1)] :=
  forced_append assignment depth count 1

theorem forced_prefix (assignment : Int) (depth : Nat) {fewer more : Nat} (le : fewer ≤ more) :
    forced assignment depth fewer <+: forced assignment depth more := by
  obtain ⟨further, rfl⟩ := Nat.exists_eq_add_of_le le
  rw [forced_append]
  exact List.prefix_append ..

theorem forced_before {assignment : Int} {depth : Nat} {before rest : List Bool}
    (answered : forced assignment depth (before ++ rest).length = before ++ rest) :
    forced assignment depth before.length = before := by
  rw [List.length_append, forced_append] at answered
  exact (List.append_inj answered (forced_length ..)).1

theorem bit_eq_testBit (assignment depth : Nat) : bit assignment depth = assignment.testBit depth := by
  rw [bit, ← Int.natCast_shiftRight, Nat.testBit_eq_decide_div_mod_eq, Nat.shiftRight_eq_div_pow]
  norm_cast

theorem assignmentOf_even (path : List Bool) : assignmentOf path % 2 = 0 := by
  cases path with
  | nil => rfl
  | cons answer path => rw [assignmentOf, Nat.mul_mod_right]

theorem assignmentOf_testBit (path : List Bool) (place : Nat) :
    (assignmentOf path).testBit (place + 1) = path.getD place false := by
  induction path generalizing place with
  | nil => simp [assignmentOf]
  | cons answer path ih =>
      have even := assignmentOf_even path
      have half : 2 * (answer.toNat + assignmentOf path) / 2 = answer.toNat + assignmentOf path := by omega
      rw [assignmentOf, Nat.testBit_succ, half]
      cases place with
      | zero => cases answer <;> simp [Nat.testBit_zero] <;> omega
      | succ place =>
          have rest : (answer.toNat + assignmentOf path) / 2 = assignmentOf path / 2 := by
            cases answer with
            | true =>
                rw [Bool.toNat_true]
                omega
            | false => rw [Bool.toNat_false, Nat.zero_add]
          rw [Nat.testBit_succ, rest, ← Nat.testBit_succ, ih, List.getD_cons_succ]

theorem bit_assignmentOf (path : List Bool) (place : Nat) :
    bit (assignmentOf path) (place + 1) = path.getD place false := by
  rw [bit_eq_testBit, assignmentOf_testBit]

theorem forced_assignmentOf (before after : List Bool) :
    forced (assignmentOf (before ++ after)) before.length after.length = after := by
  induction after generalizing before with
  | nil => rfl
  | cons answer after ih =>
      have later := ih (before ++ [answer])
      rw [List.append_assoc, List.length_append] at later
      have first : (before ++ answer :: after).getD before.length false = answer := by simp
      rw [List.length_cons, forced, bit_assignmentOf, first]
      exact congrArg (answer :: ·) (by simpa using later)

/-- An assignment that also answers the next test behind a path with true forces the longer path. -/
theorem assignmentOf_branching (path : List Bool) (count : Nat) :
    assignmentOf path ||| 1 <<< (path.length + count + 1) =
      assignmentOf (path ++ List.replicate count false ++ [true]) := by
  refine Nat.eq_of_testBit_eq fun place => ?_
  rw [Nat.testBit_or, Nat.one_shiftLeft, Nat.testBit_two_pow]
  cases place with
  | zero => simp [Nat.testBit_zero, assignmentOf_even]
  | succ place =>
      rw [assignmentOf_testBit, assignmentOf_testBit]
      grind

end Extension.Decision
