import Extension.Text.Printable

namespace Extension.Text

/-! Quoted texts, as messages show them.

A quoted text stands between single quotes, or between double quotes if it holds a single quote and
no double one.  The chosen quote and the backslash are written with a backslash before them, and a
character that is not printable by its code point.
-/

/-- The number in lower-case hexadecimal digits, padded with zeros to the given width. -/
def hex (width code : Nat) : List Char :=
  let digits := Nat.toDigits 16 code
  List.replicate (width - digits.length) '0' ++ digits

/-- A character by its code point, in the shortest of the three forms that holds it. -/
def escapeCode (code : Nat) : List Char :=
  if code ≤ 0xff then '\\' :: 'x' :: hex 2 code
  else if code ≤ 0xffff then '\\' :: 'u' :: hex 4 code
  else '\\' :: 'U' :: hex 8 code

def quoteChar (mark c : Char) : List Char :=
  if c = mark ∨ c = '\\' then ['\\', c]
  else if c = '\n' then ['\\', 'n']
  else if c = '\r' then ['\\', 'r']
  else if c = '\t' then ['\\', 't']
  else if isPrintable c then [c]
  else escapeCode c.toNat

/-- The quotation mark that needs the fewest backslashes, single unless only double is free. -/
def quoteMark (text : List Char) : Char :=
  if text.contains '\'' && !text.contains '"' then '"' else '\''

def quoteChars (text : List Char) : List Char :=
  let mark := quoteMark text
  mark :: text.flatMap (quoteChar mark) ++ [mark]

def quoted (text : String) : String :=
  String.ofList (quoteChars text.toList)

end Extension.Text
