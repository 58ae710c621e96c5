import Extension.Entries
import Extension.Number.Numeric
import Extension.Text.Wide

namespace Extension

open Number

/-! JSON documents.  Objects keep the order of their entries, and integers are kept apart from doubles. -/

inductive Json where
  | null
  | bool (b : Bool)
  | int (n : Int)
  | float (x : Binary64)
  | text (s : WideText)
  | list (items : List Json)
  | dict (entries : List (WideText × Json))

namespace Json

instance : Inhabited Json := ⟨.null⟩

def typeName : Json → String
  | .null => "NoneType"
  | .bool _ => "bool"
  | .int _ => "int"
  | .float _ => "float"
  | .text _ => "str"
  | .list _ => "list"
  | .dict _ => "dict"

def number? : Json → Option Numeric
  | .bool b => some (.ofBool b)
  | .int n => some (.int n)
  | .float x => some (.double x)
  | _ => none

def isNaN : Json → Bool
  | .float .nan => true
  | _ => false

mutual

/-- Equality across types: numbers and truth values by their number, objects in any order.  Documents know
one not-a-number, which is the same as itself. -/
def same : Json → Json → Bool
  | .null, .null => true
  | .text s, .text t => s == t
  | .list xs, .list ys => sameItems xs ys
  | .dict xs, .dict ys => xs.length == ys.length && within xs ys
  | left, right =>
      (left.isNaN && right.isNaN) ||
        match left.number?, right.number? with
        | some m, some n => m.same n
        | _, _ => false

def sameItems : List Json → List Json → Bool
  | [], [] => true
  | x :: xs, y :: ys => x.same y && sameItems xs ys
  | _, _ => false

/-- Does the second object hold every entry of the first? -/
def within : List (WideText × Json) → List (WideText × Json) → Bool
  | [], _ => true
  | (key, value) :: rest, ys =>
      (match ys.lookup key with
        | some other => value.same other
        | none => false) && within rest ys

end

end Json

end Extension
