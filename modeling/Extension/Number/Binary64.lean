namespace Extension.Number

/-! Double-precision numbers as exact values.

A finite number is a significand times a power of two.  `ofQuotient` rounds an exact quotient to the
nearest such number, an exact tie to the even significand.
-/

inductive Binary64 where
  | finite (negative : Bool) (significand : Nat) (exponent : Int)
  | infinite (negative : Bool)
  | nan
deriving DecidableEq, Repr

namespace Binary64

instance : Inhabited Binary64 := ⟨.nan⟩

def minExponent : Int := -1074

def maxExponent : Int := 971

def zero (negative : Bool) : Binary64 :=
  .finite negative 0 minExponent

/-- The natural number nearest to a quotient, and of two equally near the even one. -/
def nearest (num den : Nat) : Nat :=
  let low := num / den
  let rest := num % den
  if 2 * rest < den then low
  else if den < 2 * rest then low + 1
  else if low % 2 = 0 then low
  else low + 1

def scaleDown (num den : Nat) (exponent : Int) : Nat × Nat :=
  if 0 ≤ exponent then (num, den <<< exponent.toNat) else (num <<< (-exponent).toNat, den)

/-- The exponent that brings the quotient between `2 ^ 52` and `2 ^ 53`, if it is not too small. -/
def fittingExponent (num den : Nat) : Int :=
  let guess : Int := (num.log2 : Int) - den.log2 - 52
  let (num, den) := scaleDown num den guess
  max minExponent (if num < den <<< 52 then guess - 1 else guess)

/-- The double nearest to `num / den`. -/
def ofQuotient (negative : Bool) (num den : Nat) : Binary64 :=
  if num = 0 then zero negative
  else
    let exponent := fittingExponent num den
    let (num, den) := scaleDown num den exponent
    let rounded := nearest num den
    let (significand, exponent) :=
      if rounded = 1 <<< 53 then (1 <<< 52, exponent + 1) else (rounded, exponent)
    if maxExponent < exponent then .infinite negative else .finite negative significand exponent

/-- The double nearest to `digits · 10 ^ exponent`.  An exponent far outside the range of doubles is
answered without computing the power. -/
def ofDecimal (negative : Bool) (digits : Nat) (exponent : Int) : Binary64 :=
  if digits = 0 then zero negative
  else
    let size : Int := (Nat.toDigits 10 digits).length
    if 320 < size + exponent then .infinite negative
    else if size + exponent < -340 then zero negative
    else if 0 ≤ exponent then ofQuotient negative (digits * Nat.pow 10 exponent.toNat) 1
    else ofQuotient negative digits (Nat.pow 10 (-exponent).toNat)

def ofInt (n : Int) : Binary64 :=
  ofQuotient (n < 0) n.natAbs 1

/-- A finite number as a signed numerator over a positive denominator. -/
def quotient? : Binary64 → Option (Int × Nat)
  | .finite negative significand exponent =>
      let magnitude : Nat × Nat :=
        if 0 ≤ exponent then (significand <<< exponent.toNat, 1)
        else (significand, 1 <<< (-exponent).toNat)
      some (if negative then -(magnitude.1 : Int) else magnitude.1, magnitude.2)
  | .infinite _ | .nan => none

/-- Numerical equality: the two zeros are equal, and not-a-number equals nothing. -/
def same : Binary64 → Binary64 → Bool
  | .infinite left, .infinite right => left == right
  | left, right =>
      match left.quotient?, right.quotient? with
      | some (a, b), some (c, d) => a * d == c * b
      | _, _ => false

def isInt (x : Binary64) (n : Int) : Bool :=
  match x.quotient? with
  | some (num, den) => num == n * den
  | none => false

def isZero : Binary64 → Bool
  | .finite _ significand _ => significand == 0
  | _ => false

/-- Numerical order.  Nothing is below or above not-a-number. -/
def less : Binary64 → Binary64 → Bool
  | .nan, _ | _, .nan => false
  | .infinite left, .infinite right => left && !right
  | .infinite left, _ => left
  | _, .infinite right => !right
  | left, right =>
      match left.quotient?, right.quotient? with
      | some (a, b), some (c, d) => a * d < c * b
      | _, _ => false

end Binary64

end Extension.Number
