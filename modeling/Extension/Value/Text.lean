import Extension.Value.Basic
import Extension.Number.Reading
import Extension.Number.Shortest
import Extension.Text.Quoted

namespace Extension.Value

open Text

/-! How values are written.

`display` spells a string as it is and a context key by its name; `quoted` is the form inside lists,
dictionaries and messages, where strings stand between quotation marks.  A value is not written when an
integer in it has too many digits: `display?`, `quoted?` and `operand?` have no text for it.
-/

mutual

def quoted : Value → String
  | .null => "None"
  | .bool b => if b then "True" else "False"
  | .int n => toString n
  | .float x => x.text
  | .text s => Text.quoted s
  | .list items => "[" ++ String.intercalate ", " (quotedItems items) ++ "]"
  | .dict entries => "\x7b" ++ String.intercalate ", " (quotedEntries entries) ++ "\x7d"
  | .contextKey name => "ContextKey(" ++ Text.quoted name ++ ")"

def quotedItems : List Value → List String
  | [] => []
  | item :: rest => item.quoted :: quotedItems rest

def quotedEntries : List (String × Value) → List String
  | [] => []
  | (key, value) :: rest => (Text.quoted key ++ ": " ++ value.quoted) :: quotedEntries rest

end

mutual

/-- Is every integer in the value short enough to be written? -/
def isWritten : Value → Bool
  | .int n => Number.isWritten n
  | .list items => itemsWritten items
  | .dict entries => entriesWritten entries
  | .null | .bool _ | .float _ | .text _ | .contextKey _ => true

def itemsWritten : List Value → Bool
  | [] => true
  | item :: rest => item.isWritten && itemsWritten rest

def entriesWritten : List (String × Value) → Bool
  | [] => true
  | (_, value) :: rest => value.isWritten && entriesWritten rest

end

def display : Value → String
  | .text s => s
  | .contextKey name => name
  | other => other.quoted

/-- An operand as a when-clause spells it: the truth values and null in lower case. -/
def operand : Value → String
  | .bool b => if b then "true" else "false"
  | .null => "null"
  | other => other.display

def quoted? (value : Value) : Option String :=
  if value.isWritten then some value.quoted else none

def display? : Value → Option String
  | .text s => some s
  | .contextKey name => some name
  | other => other.quoted?

def operand? : Value → Option String
  | .bool b => some (if b then "true" else "false")
  | .null => some "null"
  | other => other.display?

theorem display?_eq (value : Value) : value.display? = if value.isWritten then some value.display else none := by
  cases value <;> rfl

theorem operand?_eq (value : Value) : value.operand? = if value.isWritten then some value.operand else none := by
  cases value <;> rfl

end Extension.Value
