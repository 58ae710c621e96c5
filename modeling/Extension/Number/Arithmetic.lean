import Extension.Number.Binary64

namespace Extension.Number.Binary64

/-! Sums and products of doubles: the exact result, rounded once. -/

def isNegative : Binary64 → Bool
  | .finite negative _ _ | .infinite negative => negative
  | .nan => false

def negate : Binary64 → Binary64
  | .finite negative significand exponent => .finite (!negative) significand exponent
  | .infinite negative => .infinite (!negative)
  | .nan => .nan

/-- The double nearest to a quotient with a sign; `negative` is the sign of a zero. -/
def ofSigned (negative : Bool) (num : Int) (den : Nat) : Binary64 :=
  ofQuotient (if num = 0 then negative else num < 0) num.natAbs den

def add : Binary64 → Binary64 → Binary64
  | .nan, _ | _, .nan => .nan
  | .infinite left, .infinite right => if left = right then .infinite left else .nan
  | .infinite negative, _ | _, .infinite negative => .infinite negative
  | left, right =>
      match left.quotient?, right.quotient? with
      | some (a, b), some (c, d) => ofSigned (left.isNegative && right.isNegative) (a * d + c * b) (b * d)
      | _, _ => .nan

def mul : Binary64 → Binary64 → Binary64
  | .nan, _ | _, .nan => .nan
  | left, right =>
      let negative := left.isNegative != right.isNegative
      match left.quotient?, right.quotient? with
      | some (a, b), some (c, d) => ofSigned negative (a * c) (b * d)
      | _, _ => if left.isZero || right.isZero then .nan else .infinite negative

end Extension.Number.Binary64
