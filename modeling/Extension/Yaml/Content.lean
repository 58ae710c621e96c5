import Extension.Document.Basic
import Extension.Number.Arithmetic
import Extension.Text.LowerCase
import Extension.Yaml.Fault
import Extension.Yaml.Tag

namespace Extension.Yaml

/-! What the texts of scalars stand for. -/

open Number

/-- The text without its low lines. -/
def withoutLows (text : WideText) : WideText :=
  ⟨text.points.filter (· != .ofChar '_')⟩

/-- Splits off a sign, which needs a text. -/
def signed (text : WideText) : Except Fault (Bool × WideText) :=
  match text.chars with
  | [] => .error .emptyNumber
  | '-' :: _ => .ok (true, text.drop 1)
  | '+' :: _ => .ok (false, text.drop 1)
  | _ => .ok (false, text)

/-- The characters of a number, the digits of every script replaced by those of ASCII. -/
def plainDigits (text : WideText) : List Char :=
  text.chars.map fun c => ((Text.digitValue? c).map Nat.digitChar).getD c

/-- The letter that may stand behind a zero before the digits in a base. -/
def baseLetter? : Nat → Option Char
  | 2 => some 'b'
  | 8 => some 'o'
  | 16 => some 'x'
  | _ => none

def withoutBase (base : Nat) (digits : List Char) : List Char :=
  match digits with
  | '0' :: letter :: rest => if baseLetter? base = some letter.toLower then rest else digits
  | _ => digits

def digitsIn (base : Nat) (text : WideText) : Except Fault Int :=
  let (negative, digits) := splitSign (unpadded (plainDigits text))
  let digits := withoutBase base digits
  let value? := digits.foldl (fun value? c => do return (← value?) * base + (← digitIn? base c)) (some 0)
  match value?, digits with
  | some value, _ :: _ => .ok (if negative then -(value : Int) else value)
  | _, _ => .error (.notAnInteger base text)

def decimal (text : WideText) : Except Fault Int :=
  let count := ((splitSign (unpadded (plainDigits text))).2.takeWhile isDigit).length
  if maxDigits < count then .error (.tooManyDigits count) else digitsIn 10 text

def colonParts (text : WideText) : List WideText :=
  (text.points.splitOn (CodePoint.ofChar ':')).map WideText.mk

/-- An integer: in base ten, two, eight or sixteen, or as hours, minutes and seconds. -/
def integer (text : WideText) : Except Fault Int := do
  let (negative, digits) ← signed (withoutLows text)
  let value ←
    match digits.chars with
    | [] => throw .emptyNumber
    | ['0'] => pure 0
    | '0' :: 'b' :: _ => digitsIn 2 (digits.drop 2)
    | '0' :: 'x' :: _ => digitsIn 16 (digits.drop 2)
    | '0' :: _ => digitsIn 8 digits
    | chars =>
        if chars.contains ':' then
          pure ((← (colonParts digits).mapM decimal).foldl (fun value part => value * 60 + part) 0)
        else decimal digits
  return if negative then -value else value

def double (text : WideText) : Except Fault Binary64 :=
  match readDouble? text.chars with
  | some value => .ok value
  | none => .error (.notADouble text)

/-- The sum of parts that count sixty times as much from each to the next, from the last one on. -/
def sixtiethSum (parts : List Binary64) : Except Fault Binary64 := do
  let (sum, _) ← parts.reverse.foldlM (fun (sum, base) part =>
    match Binary64.ofInt base with
    | .infinite _ => .error .tooLarge
    | factor => .ok (sum.add (part.mul factor), base * 60)) (Binary64.zero false, (1 : Int))
  return sum

/-- The words for special doubles.  There is one not-a-number with this name. -/
def special? (text : WideText) : Option Binary64 :=
  if text = ".inf" then some (.infinite false) else if text = ".nan" then some .nan else none

def doubleText (text : WideText) : Except Fault (Bool × WideText) :=
  signed (Text.lowerCase (withoutLows text))

/-- A double: a decimal, a special value, or hours, minutes and seconds. -/
def float (text : WideText) : Except Fault Binary64 := do
  let (negative, digits) ← doubleText text
  let value ←
    match special? digits with
    | some value => pure value
    | none =>
        if digits.chars.contains ':' then sixtiethSum (← (colonParts digits).mapM double)
        else double digits
  return if negative then value.negate else value

/-- Is the scalar the not-a-number that has a name? -/
def namesNaN (text : WideText) : Bool :=
  match doubleText text with
  | .ok (_, digits) => special? digits == some .nan
  | .error _ => false

def truth (text : WideText) : Except Fault Bool :=
  let word := Text.lowerCase text
  match word.toString? with
  | some "yes" | some "true" | some "on" => .ok true
  | some "no" | some "false" | some "off" => .ok false
  | _ => .error (.notATruth word)

def sixBits? (c : Char) : Option Nat :=
  if 'A' ≤ c ∧ c ≤ 'Z' then some (c.toNat - 'A'.toNat)
  else if 'a' ≤ c ∧ c ≤ 'z' then some (c.toNat - 'a'.toNat + 26)
  else if '0' ≤ c ∧ c ≤ '9' then some (c.toNat - '0'.toNat + 52)
  else if c = '+' then some 62
  else if c = '/' then some 63
  else none

/-- The octets of a text of six-bit characters.  `place` counts the characters of the current group of four
and `left` holds the bits that no octet has yet; a group may end with signs of equality. -/
def octetsOf (place left pads : Nat) : List Char → Option (List Nat)
  | [] => if place = 0 then some [] else none
  | c :: rest =>
      if c = '=' then
        if 2 ≤ place then (if 4 ≤ place + pads + 1 then some [] else octetsOf place left (pads + 1) rest)
        else octetsOf place left pads rest
      else match sixBits? c, place with
        | none, _ => octetsOf place left pads rest
        | some bits, 0 => octetsOf 1 bits 0 rest
        | some bits, 1 => (octetsOf 2 (bits % 16) 0 rest).map ((left * 4 + bits / 16) :: ·)
        | some bits, 2 => (octetsOf 3 (bits % 4) 0 rest).map ((left * 16 + bits / 4) :: ·)
        | some bits, _ => (octetsOf 0 0 0 rest).map ((left * 64 + bits) :: ·)

def octets (text : WideText) : Except Fault (List Nat) :=
  if text.points.any fun point => 0x7f < point.val then fail .kind
  else match octetsOf 0 0 0 text.chars with
    | some octets => .ok octets
    | none => fail .kind

def moment (text : WideText) : Except Fault Document :=
  let text := String.ofList text.chars
  match Timestamp.read? (Tag.trimEnd text).toList with
  | none => .error .notATime
  | some time =>
      match time.fault? with
      | some fault => .error (.calendar fault)
      | none => .ok (.moment text)

/-- What a scalar of some kind stands for.  A not-a-number that is computed gets the mark. -/
def ofScalar (mark : Nat) (tag : Tag) (text : WideText) : Except Fault Document :=
  match tag with
  | .null => .ok .null
  | .bool => (truth text).map .bool
  | .int => (integer text).map .int
  | .float => (float text).map fun value => .float value (if namesNaN text then 0 else mark)
  | .binary => (octets text).map .bytes
  | .timestamp => moment text
  | .str => .ok (.text text)
  | _ => fail .kind

end Extension.Yaml
