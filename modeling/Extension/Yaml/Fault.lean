import Extension.Number.Reading
import Extension.Text.Wide
import Extension.Yaml.Timestamp

namespace Extension.Yaml

/-! Why a text cannot be read as YAML. -/

inductive Malformation where
  | character
  | directive
  | anchor
  | tag
  /-- A quoted text that does not end, or ends a document. -/
  | quotation
  | escape
  | blockHeader
  /-- Something that starts no part of a document. -/
  | unknownStart
  /-- A key without a value, or a key, value or item where none can stand. -/
  | misplaced
  | incoherent
  | alias
  | secondDocument
  /-- A node that cannot be of the kind that its tag says. -/
  | kind
  | unhashable
  | merge
deriving DecidableEq, Repr

inductive Fault where
  | malformed (what : Malformation)
  /-- An escape for a character behind the last one. -/
  | codePoint (code : Nat)
  | notAnInteger (base : Nat) (text : WideText)
  | tooManyDigits (count : Nat)
  | notADouble (text : WideText)
  /-- A place value that no double can hold. -/
  | tooLarge
  | notATruth (text : WideText)
  | emptyNumber
  | notATime
  /-- A mapping where a point in time is asked for. -/
  | mappingAsTime
  /-- A text that is said to be part of itself. -/
  | endless
  | tooDeep
  | calendar (fault : Timestamp.CalendarFault)
deriving DecidableEq, Repr

/-- How many characters of a text that is no integer are shown. -/
def shownLength : Nat := 200

def Fault.message : Fault → String
  | .codePoint code =>
      if code < 1 <<< 31 then "chr() arg not in range(0x110000)" else "Python int too large to convert to C int"
  | .notAnInteger base text =>
      s!"invalid literal for int() with base {base}: " ++ String.ofList (text.quoted.toList.take shownLength)
  | .tooManyDigits count => Number.tooManyDigitsText count
  | .notADouble text => "could not convert string to float: " ++ text.quoted
  | .tooLarge => "int too large to convert to float"
  | .notATruth text => text.quoted
  | .calendar fault => fault.message
  | .malformed _ | .emptyNumber | .notATime | .mappingAsTime | .endless | .tooDeep => ""

def fail (what : Malformation) : Except Fault α :=
  .error (.malformed what)

end Extension.Yaml
