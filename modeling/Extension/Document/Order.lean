import Extension.Document.Basic

namespace Extension.Document

open Number

/-! Sorting documents.  Only documents of one kind can be compared: texts, numbers, or sequences of such. -/

mutual

/-- Is the first document before the second?  Missing if they cannot be compared. -/
def before? : Document → Document → Option Bool
  | .text s, .text t => some (s.before t)
  | .tuple xs, .tuple ys => itemsBefore? xs ys
  | left, right =>
      match left.number?, right.number? with
      | some m, some n => some (m.less n)
      | _, _ => none

def itemsBefore? : List Document → List Document → Option Bool
  | [], [] => some false
  | [], _ :: _ => some true
  | _ :: _, [] => some false
  | x :: xs, y :: ys => if x.same y then itemsBefore? xs ys else x.before? y

end

def comparable (documents : List Document) : Bool :=
  match documents with
  | [] => true
  | first :: rest => rest.all fun other => (first.before? other).isSome

def notAfter (left right : Document) : Bool :=
  (right.before? left) != some true

def sort (documents : List Document) : Except ShapeFault (List Document) :=
  if comparable documents then .ok (documents.mergeSort notAfter) else .error .wrongType

end Extension.Document
