import Extension.Number.Binary64

namespace Extension.Number

/-! The fewest decimal digits that read back as the same double.

All reals in the interval around a double, half way to its neighbours, round to it.  The grid of
decimals with `n` digits is searched for `n = 1, 2, …` at the two points next to the double: the first
grid with a point in the interval gives the digits, and of two points the nearer one.
-/

/-- Decimal digits with the place of the first: `d₁.d₂d₃… · 10 ^ place`. -/
structure Decimal where
  digits : List Char
  place : Int
deriving DecidableEq, Repr

namespace Shortest

def digitCount (n : Nat) : Nat :=
  (Nat.toDigits 10 n).length

/-- The power of ten at or below a positive quotient. -/
def place (num den : Nat) : Int :=
  if den ≤ num then (digitCount (num / den) : Int) - 1
  else -(digitCount ((den + num - 1) / num - 1) : Int)

/-- A positive double with the ends of the interval that rounds to it, over one denominator.  The
ends belong to the interval if the significand is even. -/
structure Interval where
  low : Nat
  value : Nat
  high : Nat
  den : Nat
  closed : Bool

def interval (significand : Nat) (exponent : Int) : Interval :=
  let below := if significand = 1 <<< 52 ∧ Binary64.minExponent < exponent then 1 else 2
  let scale : Nat × Nat :=
    if 2 ≤ exponent then (1 <<< (exponent - 2).toNat, 1) else (1, 1 <<< (2 - exponent).toNat)
  { low := (4 * significand - below) * scale.1
    value := 4 * significand * scale.1
    high := (4 * significand + 2) * scale.1
    den := scale.2
    closed := significand % 2 = 0 }

def Interval.holds (around : Interval) (num den : Nat) : Bool :=
  let point := num * around.den
  if around.closed then around.low * den ≤ point && point ≤ around.high * den
  else around.low * den < point && point < around.high * den

/-- The point of the grid of multiples of `10 ^ unit` that stands for the interval, if one does. -/
def Interval.onGrid? (around : Interval) (unit : Int) : Option Nat :=
  let (up, down) : Nat × Nat :=
    if 0 ≤ unit then (Nat.pow 10 unit.toNat, 1) else (1, Nat.pow 10 (-unit).toNat)
  let low := around.value * down / (around.den * up)
  let lowHolds := around.holds (low * up) down
  let highHolds := around.holds ((low + 1) * up) down
  if lowHolds && highHolds then
    let twice := 2 * around.value * down
    let middle := (2 * low + 1) * up * around.den
    if twice < middle then some low
    else if middle < twice then some (low + 1)
    else some (if low % 2 = 0 then low else low + 1)
  else if lowHolds then some low
  else if highHolds then some (low + 1)
  else none

/-- The first grid with a point, from `count` digits on.  Seventeen digits always hold one. -/
def search (around : Interval) (first : Int) : Nat → Nat → Nat × Int
  | 0, count => (around.value / around.den, first - count + 1)
  | tries + 1, count =>
      let unit := first - count + 1
      match around.onGrid? unit with
      | some point => (point, unit)
      | none => search around first tries (count + 1)

def dropZeros (digits : List Char) : List Char :=
  match (digits.reverse.dropWhile (· == '0')).reverse with
  | [] => ['0']
  | kept => kept

/-- The shortest digits of a positive finite double. -/
def decimal (significand : Nat) (exponent : Int) : Decimal :=
  let around := interval significand exponent
  let (point, unit) := search around (place around.value around.den) 17 1
  let digits := Nat.toDigits 10 point
  { digits := dropZeros digits, place := unit + digits.length - 1 }

end Shortest

namespace Decimal

def zeros (count : Int) : List Char :=
  List.replicate count.toNat '0'

def positional (d : Decimal) : List Char :=
  if d.place < 0 then '0' :: '.' :: zeros (-d.place - 1) ++ d.digits
  else
    let whole := (d.place + 1).toNat
    let fraction := d.digits.drop whole
    d.digits.take whole ++ zeros (whole - d.digits.length) ++ '.' :: (if fraction = [] then ['0'] else fraction)

def scientific (d : Decimal) : List Char :=
  let fraction := d.digits.drop 1
  let exponent := Nat.toDigits 10 d.place.natAbs
  d.digits.take 1 ++ (if fraction = [] then [] else '.' :: fraction) ++
    'e' :: (if d.place < 0 then '-' else '+') :: (if exponent.length < 2 then '0' :: exponent else exponent)

/-- Places from `10 ^ -4` up to below `10 ^ 16` are written out, all others with an exponent. -/
def text (d : Decimal) : List Char :=
  if -4 ≤ d.place ∧ d.place < 16 then d.positional else d.scientific

end Decimal

namespace Binary64

/-- The number in its shortest decimal form; it always shows a point, an exponent or a name. -/
def text : Binary64 → String
  | .nan => "nan"
  | .infinite negative => if negative then "-inf" else "inf"
  | .finite negative significand exponent =>
      let digits := if significand = 0 then ⟨['0'], 0⟩ else Shortest.decimal significand exponent
      String.ofList ((if negative then ['-'] else []) ++ digits.text)

end Binary64

end Extension.Number
