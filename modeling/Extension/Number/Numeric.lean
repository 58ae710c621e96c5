import Extension.Number.Binary64

namespace Extension.Number

/-! Integers and doubles as one ordered kind of number. -/

inductive Numeric where
  | int (n : Int)
  | double (x : Binary64)
deriving DecidableEq, Repr

namespace Numeric

def ofBool (b : Bool) : Numeric :=
  .int (if b then 1 else 0)

/-- Equality of the numbers, whatever form they have. -/
def same : Numeric → Numeric → Bool
  | .int m, .int n => m == n
  | .int m, .double y => y.isInt m
  | .double x, .int n => x.isInt n
  | .double x, .double y => x.same y

def lessInt (x : Binary64) (n : Int) : Bool :=
  match x.quotient?, x with
  | some (num, den), _ => num < n * den
  | none, .infinite negative => negative
  | none, _ => false

def intLess (n : Int) (x : Binary64) : Bool :=
  match x.quotient?, x with
  | some (num, den), _ => n * den < num
  | none, .infinite negative => !negative
  | none, _ => false

def less : Numeric → Numeric → Bool
  | .int m, .int n => m < n
  | .int m, .double y => intLess m y
  | .double x, .int n => lessInt x n
  | .double x, .double y => x.less y

end Numeric

end Extension.Number
