import Extension.Number.Binary64
import Extension.Text.Blank
import Extension.Text.Digit

namespace Extension.Number

/-! Numbers read from texts that people write.

Blanks around a number are skipped unless they are information separators, a sign may stand before it, the
digits may be those of any script, and a single underscore may stand between two digits.
-/

open Extension.Text

/-- The longest integer text that is read or written. -/
def maxDigits : Nat := 4300

def tooManyDigitsText (count : Nat) : String :=
  s!"Exceeds the limit ({maxDigits} digits) for integer string conversion: value has {count} digits; " ++
    "use sys.set_int_max_str_digits() to increase the limit"

/-- Does an integer have no more digits than are written? -/
def isWritten (n : Int) : Bool :=
  n.natAbs < Nat.pow 10 maxDigits

def unwrittenText : String :=
  s!"Exceeds the limit ({maxDigits} digits) for integer string conversion; " ++
    "use sys.set_int_max_str_digits() to increase the limit"

/-- The values of a digit group: digits, with a single underscore allowed between two of them. -/
def readDigits : List Char → Option (List Nat)
  | [] => some []
  | '_' :: c :: rest => do
      let digit ← digitValue? c
      return digit :: (← readDigits rest)
  | c :: rest => do
      let digit ← digitValue? c
      return digit :: (← readDigits rest)

def ofDigits (digits : List Nat) : Nat :=
  digits.foldl (fun value digit => 10 * value + digit) 0

def readNat? (text : List Char) : Option (List Nat) :=
  match text with
  | [] | '_' :: _ => none
  | _ => readDigits text

def isPadding (c : Char) : Bool :=
  isBlank c && !(0x1c ≤ c.toNat && c.toNat ≤ 0x1f)

def unpadded (text : List Char) : List Char :=
  ((text.dropWhile isPadding).reverse.dropWhile isPadding).reverse

/-- Splits off a sign; the result is true for a minus. -/
def splitSign : List Char → Bool × List Char
  | '-' :: rest => (true, rest)
  | '+' :: rest => (false, rest)
  | text => (false, text)

def readInteger? (text : List Char) : Option Int := do
  let (negative, rest) := splitSign (unpadded text)
  let digits ← readNat? rest
  if maxDigits < digits.length then none
  else
    let value : Int := ofDigits digits
    return if negative then -value else value

def readOptional (text : List Char) : Option (List Nat) :=
  if text = [] then some [] else readNat? text

/-- The text before the first character of a kind, and what follows it if there is one. -/
def splitAt (isMark : Char → Bool) (text : List Char) : List Char × Option (List Char) :=
  match text.span (!isMark ·) with
  | (before, []) => (before, none)
  | (before, _ :: after) => (before, some after)

/-- Reads a double: digits with an optional point and exponent, or the name of a special value. -/
def readDouble? (text : List Char) : Option Binary64 :=
  let (negative, rest) := splitSign (unpadded text)
  match String.ofList (rest.map Char.toLower) with
  | "inf" | "infinity" => some (.infinite negative)
  | "nan" => some .nan
  | _ => do
      let (mantissa, power) := splitAt (fun c => c == 'e' || c == 'E') rest
      let exponent ← match power with
        | none => some (0 : Int)
        | some power => do
            let (below, power) := splitSign power
            let value : Int := ofDigits (← readNat? power)
            pure (if below then -value else value)
      let (whole, fraction) := splitAt (· == '.') mantissa
      let whole ← readOptional whole
      let fraction ← readOptional (fraction.getD [])
      if whole.isEmpty && fraction.isEmpty then none
      else return .ofDecimal negative (ofDigits (whole ++ fraction)) (exponent - fraction.length)

end Extension.Number
