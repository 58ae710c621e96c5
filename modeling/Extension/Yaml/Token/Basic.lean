import Extension.Text.Wide

namespace Extension.Yaml

/-! The tokens of a YAML text.

Nested blocks are made explicit: a block of items or of entries has a start, and every block has an end.
-/

inductive Directive where
  | version (major minor : Nat)
  | handle (name start : String)
  | unknown
deriving DecidableEq, Repr

inductive Token where
  | directive (content : Directive)
  | documentStart
  | documentEnd
  | streamEnd
  | itemsStart
  | entriesStart
  | blockEnd
  | item
  | key
  | value
  | listStart
  | listEnd
  | dictStart
  | dictEnd
  | comma
  | alias (name : String)
  | anchor (name : String)
  | tag (handle : Option String) (suffix : String)
  | scalar (text : WideText) (isPlain : Bool)
deriving DecidableEq, Repr

end Extension.Yaml
