import Extension.Entries
import Extension.Number.Numeric

namespace Extension

open Number

/-! Dynamic values: what rules compare context keys with, what commands take and what the host is told. -/

inductive Value where
  | null
  | bool (b : Bool)
  | int (n : Int)
  | float (x : Binary64)
  | text (s : String)
  | list (items : List Value)
  | dict (entries : List (String × Value))
  | contextKey (name : String)

namespace Value

instance : Inhabited Value := ⟨.null⟩

def typeName : Value → String
  | .null => "NoneType"
  | .bool _ => "bool"
  | .int _ => "int"
  | .float _ => "float"
  | .text _ => "str"
  | .list _ => "list"
  | .dict _ => "dict"
  | .contextKey _ => "ContextKey"

/-- The type as messages about unsupported values name it. -/
def typeText (v : Value) : String :=
  let name := match v with
    | .contextKey _ => "contributions.context_key.ContextKey"
    | other => other.typeName
  s!"<class '{name}'>"

/-- Empty and zero values, the null and the false one do not count as true. -/
def truthy : Value → Bool
  | .null => false
  | .bool b => b
  | .int n => n != 0
  | .float x => !x.isZero
  | .text s => s != ""
  | .list items => !items.isEmpty
  | .dict entries => !entries.isEmpty
  | .contextKey _ => true

/-- Can the value be looked up in a table? -/
def isHashable : Value → Bool
  | .list _ | .dict _ => false
  | _ => true

def number? : Value → Option Numeric
  | .bool b => some (.ofBool b)
  | .int n => some (.int n)
  | .float x => some (.double x)
  | _ => none

/-- A dictionary with each key once, at the place where it was first given and with its last value. -/
def ofEntries (entries : Entries Value) : Value :=
  .dict (Entries.putAll [] entries)

mutual

/-- Equality across types: numbers and truth values by their number, dictionaries in any order.
Two context keys are never the same value, since each is made where it is used. -/
def same : Value → Value → Bool
  | .null, .null => true
  | .text s, .text t => s == t
  | .list xs, .list ys => sameItems xs ys
  | .dict xs, .dict ys => xs.length == ys.length && within xs ys
  | left, right =>
      match left.number?, right.number? with
      | some m, some n => m.same n
      | _, _ => false

def sameItems : List Value → List Value → Bool
  | [], [] => true
  | x :: xs, y :: ys => x.same y && sameItems xs ys
  | _, _ => false

def within : List (String × Value) → List (String × Value) → Bool
  | [], _ => true
  | (key, value) :: rest, ys =>
      (match ys.lookup key with
        | some other => value.same other
        | none => false) && within rest ys

end

end Value

end Extension
