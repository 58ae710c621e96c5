import Extension.Json.Basic
import Extension.Number.Reading

namespace Extension.Json

open Number

/-! Reading a JSON text.

The reader works on the characters that are left; a fault is placed by how many characters were left where
it was found.
-/

inductive SyntaxFault where
  | value
  | propertyName
  | colon
  | comma
  | unterminated
  | control
  | badEscape
  | badUnicode
  | extraData
  | byteOrderMark
deriving DecidableEq, Repr

def SyntaxFault.message : SyntaxFault → String
  | .value => "Expecting value"
  | .propertyName => "Expecting property name enclosed in double quotes"
  | .colon => "Expecting ':' delimiter"
  | .comma => "Expecting ',' delimiter"
  | .unterminated => "Unterminated string starting at"
  | .control => "Invalid control character at"
  | .badEscape => "Invalid \\escape"
  | .badUnicode => "Invalid \\uXXXX escape"
  | .extraData => "Extra data"
  | .byteOrderMark => "Unexpected UTF-8 BOM (decode using utf-8-sig)"

inductive ReadFault where
  /-- A fault at a character, counted from zero, with its line and column, counted from one. -/
  | malformed (fault : SyntaxFault) (place line column : Nat)
  /-- An integer with more digits than are read. -/
  | tooManyDigits (count : Nat)
deriving DecidableEq, Repr

def ReadFault.message : ReadFault → String
  | .malformed fault place line column => s!"{fault.message}: line {line} column {column} (char {place})"
  | .tooManyDigits count => tooManyDigitsText count

namespace Reader

/-- A fault before it is placed. -/
inductive Stop where
  | malformed (fault : SyntaxFault) (left : Nat)
  | tooManyDigits (count : Nat)

abbrev Read (α : Type) := Except Stop (α × List Char)

def fail (fault : SyntaxFault) (rest : List Char) : Except Stop α :=
  .error (.malformed fault rest.length)

def isSpace (c : Char) : Bool :=
  c == ' ' || c == '\t' || c == '\n' || c == '\r'

def skipSpaces (rest : List Char) : List Char :=
  rest.dropWhile isSpace

def hexValue? (c : Char) : Option Nat :=
  if '0' ≤ c ∧ c ≤ '9' then some (c.toNat - '0'.toNat)
  else if 'a' ≤ c ∧ c ≤ 'f' then some (c.toNat - 'a'.toNat + 10)
  else if 'A' ≤ c ∧ c ≤ 'F' then some (c.toNat - 'A'.toNat + 10)
  else none

/-- The UTF-16 unit of four hexadecimal digits. -/
def unit? : List Char → Option Nat
  | [a, b, c, d] => do
      return (((← hexValue? a) * 16 + (← hexValue? b)) * 16 + (← hexValue? c)) * 16 + (← hexValue? d)
  | _ => none

def ofPair (high low : Nat) : CodePoint :=
  .ofNat (0x10000 + (high - 0xd800) * 0x400 + (low - 0xdc00))

def escaped? : Char → Option Char
  | '"' => some '"'
  | '\\' => some '\\'
  | '/' => some '/'
  | 'b' => some '\x08'
  | 'f' => some '\x0c'
  | 'n' => some '\n'
  | 'r' => some '\r'
  | 't' => some '\t'
  | _ => none

/-- Reads the rest of a string.  `start` is the number of characters left at its opening quote, and `read`
holds the code points before, the last one first.  Half of a pair that stands alone is kept. -/
def string (start : Nat) : Nat → List CodePoint → List Char → Read WideText
  | 0, _, _ => .error (.malformed .unterminated start)
  | fuel + 1, read, rest =>
      match rest with
      | [] => .error (.malformed .unterminated start)
      | '"' :: rest => .ok (⟨read.reverse⟩, rest)
      | '\\' :: 'u' :: digits =>
          if digits.length ≤ 4 then fail .badUnicode ('u' :: digits)
          else
            let after := digits.drop 4
            match unit? (digits.take 4) with
            | none => fail .badUnicode ('u' :: digits)
            | some high =>
                match pair? high after with
                | none => string start fuel (.ofNat high :: read) after
                | some none => fail .badUnicode (after.drop 1)
                | some (some low) => string start fuel (ofPair high low :: read) (after.drop 6)
      | ['\\'] => .error (.malformed .unterminated start)
      | '\\' :: c :: after =>
          match escaped? c with
          | some c => string start fuel (.ofChar c :: read) after
          | none => fail .badEscape ('\\' :: c :: after)
      | c :: after =>
          if c.toNat ≤ 0x1f then fail .control (c :: after) else string start fuel (.ofChar c :: read) after
where
  /-- The second half of a pair, after a first half.  The inner result is missing if the escape that follows
  is malformed. -/
  pair? (high : Nat) (after : List Char) : Option (Option Nat) :=
    if 0xd800 ≤ high ∧ high ≤ 0xdbff then
      match after with
      | '\\' :: 'u' :: digits =>
          if digits.length ≤ 4 then none
          else match unit? (digits.take 4) with
            | none => some none
            | some low => if 0xdc00 ≤ low ∧ low ≤ 0xdfff then some (some low) else none
      | _ => none
    else none

def isDigit (c : Char) : Bool :=
  '0' ≤ c && c ≤ '9'

def fraction (rest : List Char) : List Char × List Char :=
  match rest with
  | '.' :: c :: _ => if isDigit c then ((rest.drop 1).takeWhile isDigit, (rest.drop 1).dropWhile isDigit) else ([], rest)
  | _ => ([], rest)

def exponent? (rest : List Char) : Option (Int × List Char) :=
  match rest with
  | e :: after =>
      if e == 'e' || e == 'E' then
        let (negative, digits) := splitSign after
        let value : Int := (String.ofList (digits.takeWhile isDigit)).toNat?.getD 0
        if (digits.takeWhile isDigit).isEmpty then none
        else some (if negative then -value else value, digits.dropWhile isDigit)
      else none
  | [] => none

def digitsValue (digits : List Char) : Nat :=
  ofDigits (digits.map fun c => c.toNat - '0'.toNat)

/-- Reads a number; `start` is where it begins. -/
def number (start : List Char) : Read Json :=
  let (negative, unsigned) := match start with
    | '-' :: rest => (true, rest)
    | rest => (false, rest)
  let (whole, rest) := match unsigned with
    | '0' :: rest => (['0'], rest)
    | rest => (rest.takeWhile isDigit, rest.dropWhile isDigit)
  if whole.isEmpty then fail .value start
  else
    let (fraction, rest) := fraction rest
    match exponent? rest with
    | some (exponent, rest) =>
        .ok (.float (.ofDecimal negative (digitsValue (whole ++ fraction)) (exponent - fraction.length)), rest)
    | none =>
        if !fraction.isEmpty then
          .ok (.float (.ofDecimal negative (digitsValue (whole ++ fraction)) (-(fraction.length : Int))), rest)
        else if maxDigits < whole.length then .error (.tooManyDigits whole.length)
        else
          let value : Int := digitsValue whole
          .ok (.int (if negative then -value else value), rest)

def words : List (String × Json) :=
  [("null", .null), ("true", .bool true), ("false", .bool false), ("NaN", .float .nan),
    ("Infinity", .float (.infinite false)), ("-Infinity", .float (.infinite true))]

def atom (rest : List Char) : Read Json :=
  match words.find? fun (word, _) => word.toList.isPrefixOf rest with
  | some (word, value) => .ok (value, rest.drop word.length)
  | none => number rest

mutual

/-- Reads a value.  Every step takes at least one character, so the length of the text is fuel enough. -/
def value : Nat → List Char → Read Json
  | 0, rest => fail .value rest
  | fuel + 1, rest =>
      match rest with
      | '"' :: after =>
          match string rest.length rest.length [] after with
          | .error stop => .error stop
          | .ok (content, rest) => .ok (.text content, rest)
      | '[' :: after =>
          match skipSpaces after with
          | ']' :: rest => .ok (.list [], rest)
          | rest => items fuel [] rest
      | '{' :: after =>
          match skipSpaces after with
          | '}' :: rest => .ok (.dict [], rest)
          | rest => entries fuel [] rest
      | _ => atom rest

def items : Nat → List Json → List Char → Read Json
  | 0, _, rest => fail .value rest
  | fuel + 1, read, rest =>
      match value fuel rest with
      | .error stop => .error stop
      | .ok (item, rest) =>
          match skipSpaces rest with
          | ']' :: rest => .ok (.list (item :: read).reverse, rest)
          | ',' :: rest => items fuel (item :: read) (skipSpaces rest)
          | rest => fail .comma rest

def entries : Nat → Entries Json WideText → List Char → Read Json
  | 0, _, rest => fail .propertyName rest
  | fuel + 1, read, rest =>
      match rest with
      | '"' :: after =>
          match string rest.length rest.length [] after with
          | .error stop => .error stop
          | .ok (key, rest) =>
              match skipSpaces rest with
              | ':' :: rest =>
                  match value fuel (skipSpaces rest) with
                  | .error stop => .error stop
                  | .ok (value, rest) =>
                      let read := read.put key value
                      match skipSpaces rest with
                      | '}' :: rest => .ok (.dict read, rest)
                      | ',' :: rest => entries fuel read (skipSpaces rest)
                      | rest => fail .comma rest
              | rest => fail .colon rest
      | _ => fail .propertyName rest

end

def Stop.place (text : List Char) : Stop → ReadFault
  | .tooManyDigits count => .tooManyDigits count
  | .malformed fault left =>
      let before := text.take (text.length - left)
      let column := (before.reverse.takeWhile (· != '\n')).length + 1
      .malformed fault before.length (before.count '\n' + 1) column

def document (text : List Char) : Except Stop Json :=
  match text with
  | '\ufeff' :: _ => fail .byteOrderMark text
  | _ =>
      match value (text.length + 1) (skipSpaces text) with
      | .error stop => .error stop
      | .ok (document, rest) =>
          match skipSpaces rest with
          | [] => .ok document
          | rest => fail .extraData rest

end Reader

/-- Reads a document that fills the text. -/
def parse (text : String) : Except ReadFault Json :=
  (Reader.document text.toList).mapError (Reader.Stop.place text.toList)

end Extension.Json
