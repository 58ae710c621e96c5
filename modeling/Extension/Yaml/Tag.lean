import Extension.Text.Wide
import Extension.Yaml.Timestamp

namespace Extension.Yaml

/-! The kinds of nodes, and how an unmarked scalar shows its kind by its text. -/

inductive Tag where
  | null
  | bool
  | int
  | float
  | binary
  | timestamp
  | omap
  | pairs
  | set
  | str
  | seq
  | map
  | merge
  | value
  | other (name : String)
deriving DecidableEq, Repr

namespace Tag

def named : List (String × Tag) :=
  [("null", .null), ("bool", .bool), ("int", .int), ("float", .float), ("binary", .binary),
    ("timestamp", .timestamp), ("omap", .omap), ("pairs", .pairs), ("set", .set), ("str", .str), ("seq", .seq),
    ("map", .map), ("merge", .merge), ("value", .value)]

/-- What the full names of these kinds start with. -/
def family : String := "tag:yaml.org,2002:"

def ofName (name : String) : Tag :=
  match named.find? fun (short, _) => name = family ++ short with
  | some (_, tag) => tag
  | none => .other name

def boolWords : List String :=
  ["yes", "Yes", "YES", "no", "No", "NO", "true", "True", "TRUE", "false", "False", "FALSE", "on", "On", "ON",
    "off", "Off", "OFF"]

def nullWords : List String := ["", "~", "null", "Null", "NULL"]

def skipSign : List Char → List Char
  | '+' :: rest | '-' :: rest => rest
  | text => text

def isDigitOrLow (c : Char) : Bool :=
  isDigit c || c == '_'

/-- One or more parts of an hour or a minute, each behind a colon; what follows them. -/
def sixtieths? : Nat → List Char → Option (List Char)
  | 0, _ => none
  | fuel + 1, text =>
      match text with
      | ':' :: rest =>
          let (run, after) := rest.span isDigit
          let fits := match run with
            | [_] => true
            | [tens, _] => tens ≤ '5'
            | _ => false
          if !fits then none
          else match after with
            | ':' :: _ => sixtieths? fuel after
            | _ => some after
      | _ => none

def isExponent : List Char → Bool
  | [] => true
  | e :: sign :: digits =>
      (e == 'e' || e == 'E') && (sign == '+' || sign == '-') && !digits.isEmpty && digits.all isDigit
  | _ => false

def startsWithDigit : List Char → Bool
  | c :: _ => isDigit c
  | [] => false

def isFloat (text : List Char) : Bool :=
  let unsigned := skipSign text
  let afterDigits := unsigned.dropWhile isDigitOrLow
  let plain := startsWithDigit unsigned && match afterDigits with
    | '.' :: rest => isExponent (rest.dropWhile isDigitOrLow)
    | _ => false
  let small := match text with
    | '.' :: rest => startsWithDigit rest && isExponent (rest.dropWhile isDigitOrLow)
    | _ => false
  let sexagesimal := startsWithDigit unsigned && match sixtieths? text.length afterDigits with
    | some ('.' :: rest) => rest.all isDigitOrLow
    | _ => false
  let word := [".inf", ".Inf", ".INF"].contains (String.ofList unsigned) ||
    [".nan", ".NaN", ".NAN"].contains (String.ofList text)
  plain || small || sexagesimal || word

def isInt (text : List Char) : Bool :=
  match skipSign text with
  | '0' :: 'b' :: digits => !digits.isEmpty && digits.all fun c => c == '0' || c == '1' || c == '_'
  | '0' :: 'x' :: digits => !digits.isEmpty && digits.all fun c => (digitIn? 16 c).isSome || c == '_'
  | '0' :: digits => digits.all fun c => (digitIn? 8 c).isSome || c == '_'
  | first :: rest =>
      isDigit first && match rest.dropWhile isDigitOrLow with
        | [] => true
        | after => sixtieths? text.length after == some []
  | [] => false

def isTimestamp (text : List Char) : Bool :=
  match Timestamp.read? text with
  | some time => time.isPadded || time.clock.isSome
  | none => false

/-- The text without a line feed at its end. -/
def trimEnd (text : String) : String :=
  match text.toList.reverse with
  | '\n' :: rest => String.ofList rest.reverse
  | _ => text

def ofText (content : String) : Tag :=
  let text := trimEnd content
  let chars := text.toList
  if boolWords.contains text then .bool
  else if isFloat chars then .float
  else if isInt chars then .int
  else if text == "<<" then .merge
  else if nullWords.contains text && (text != "" || content == "") then .null
  else if isTimestamp chars then .timestamp
  else if text == "=" then .value
  else if text == "!" || text == "&" || text == "*" then .other (family ++ "yaml")
  else .str

/-- The kind of a scalar without a tag and without quotation marks. -/
def ofPlain (content : WideText) : Tag :=
  match content.toString? with
  | some text => ofText text
  | none => .str

end Tag

end Extension.Yaml
