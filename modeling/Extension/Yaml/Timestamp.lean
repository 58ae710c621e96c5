import Extension.Yaml.Character

namespace Extension.Yaml

/-! Dates and times as YAML spells them. -/

inductive Zone where
  | universal
  | offset (negative : Bool) (hours minutes : Nat)
deriving DecidableEq, Repr

structure Clock where
  hour : Nat
  minute : Nat
  second : Nat
  zone : Option Zone
deriving DecidableEq, Repr

structure Timestamp where
  year : Nat
  month : Nat
  day : Nat
  /-- Have the month and the day two digits each? -/
  isPadded : Bool
  clock : Option Clock
deriving DecidableEq, Repr

namespace Timestamp

def valueOf (digits : List Char) : Nat :=
  digits.foldl (fun value c => 10 * value + (c.toNat - '0'.toNat)) 0

/-- As many digits as stand here, if their number is in the range. -/
def digits? (least most : Nat) (text : List Char) : Option (List Char × List Char) :=
  let (run, rest) := text.span isDigit
  if least ≤ run.length ∧ run.length ≤ most then some (run, rest) else none

def char? (c : Char) : List Char → Option (List Char)
  | first :: rest => if first = c then some rest else none
  | [] => none

def zone? (text : List Char) : Option (Option Zone) :=
  if text = [] then some none
  else match text.dropWhile isBlank with
    | ['Z'] => some (some .universal)
    | sign :: rest =>
        if sign = '+' ∨ sign = '-' then do
          let (hours, rest) ← digits? 1 2 rest
          match rest with
          | [] => return some (.offset (sign == '-') (valueOf hours) 0)
          | _ =>
              let (minutes, rest) ← digits? 2 2 (← char? ':' rest)
              if rest = [] then return some (.offset (sign == '-') (valueOf hours) (valueOf minutes)) else none
        else none
    | [] => none

def clock? (text : List Char) : Option Clock := do
  let (hour, rest) ← digits? 1 2 text
  let (minute, rest) ← digits? 2 2 (← char? ':' rest)
  let (second, rest) ← digits? 2 2 (← char? ':' rest)
  let rest := match rest with
    | '.' :: fraction => fraction.dropWhile isDigit
    | rest => rest
  return { hour := valueOf hour, minute := valueOf minute, second := valueOf second, zone := ← zone? rest }

/-- Reads a date, or a date and a time behind a `T` or blanks. -/
def read? (text : List Char) : Option Timestamp := do
  let (year, rest) ← digits? 4 4 text
  let (month, rest) ← digits? 1 2 (← char? '-' rest)
  let (day, rest) ← digits? 1 2 (← char? '-' rest)
  let date (clock : Option Clock) : Timestamp :=
    { year := valueOf year, month := valueOf month, day := valueOf day
      isPadded := month.length == 2 && day.length == 2, clock }
  match rest with
  | [] => return date none
  | c :: after =>
      if c = 'T' ∨ c = 't' then return date (← clock? after)
      else if isBlank c then return date (← clock? (rest.dropWhile isBlank))
      else none

def isLeap (year : Nat) : Bool :=
  year % 4 == 0 && (year % 100 != 0 || year % 400 == 0)

def daysIn (year month : Nat) : Nat :=
  if month = 2 then (if isLeap year then 29 else 28)
  else if month = 4 ∨ month = 6 ∨ month = 9 ∨ month = 11 then 30
  else 31

inductive CalendarFault where
  /-- An offset of a day or more. -/
  | zone (negative : Bool) (hours minutes : Nat)
  | year (year : Nat)
  | month
  | day
  | hour
  | minute
  | second
deriving DecidableEq, Repr

def offsetText (negative : Bool) (hours minutes : Nat) : String :=
  let total : Int := (hours * 60 + minutes) * 60
  let total := if negative then -total else total
  let days := Int.fdiv total 86400
  let seconds := Int.fmod total 86400
  let seconds := if seconds = 0 then "" else s!", seconds={seconds}"
  s!"datetime.timedelta(days={days}{seconds})."

def CalendarFault.message : CalendarFault → String
  | .zone negative hours minutes =>
      "offset must be a timedelta strictly between -timedelta(hours=24) and timedelta(hours=24), not " ++
        offsetText negative hours minutes
  | .year number => s!"year {number} is out of range"
  | .month => "month must be in 1..12"
  | .day => "day is out of range for month"
  | .hour => "hour must be in 0..23"
  | .minute => "minute must be in 0..59"
  | .second => "second must be in 0..59"

/-- The first thing that makes a date or time impossible. -/
def fault? (time : Timestamp) : Option CalendarFault :=
  let zone := match time.clock.bind Clock.zone with
    | some (.offset negative hours minutes) =>
        if 24 * 60 ≤ hours * 60 + minutes then some (.zone negative hours minutes) else none
    | _ => none
  let date :=
    if time.year = 0 then some (.year time.year)
    else if time.month = 0 ∨ 12 < time.month then some .month
    else if time.day = 0 ∨ daysIn time.year time.month < time.day then some .day
    else none
  let clock := match time.clock with
    | none => none
    | some clock =>
        if 23 < clock.hour then some .hour
        else if 59 < clock.minute then some .minute
        else if 59 < clock.second then some CalendarFault.second
        else none
  zone <|> date <|> clock

end Timestamp

end Extension.Yaml
