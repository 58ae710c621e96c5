import Extension.CommandLine.Thing

namespace Extension.CommandLine

open Decision

/-! Families of members: those of one type that answer calls alike.

A target may name any member of a thing, and most members can be called.  What a call comes to is told in two
ways: with an accessor, as a rule is called, and with nothing, as a function that declares contributions is.
-/

namespace Members

inductive Answer where
  | holds
  | fails
  | refuses
  /-- The accessor is taken for a list, and asked for its first item. -/
  | enumerates
deriving DecidableEq, Repr

namespace Answer

def misuse (fault : Fault) : Problem :=
  .failure (.fault fault)

def counts : Answer → Except Problem Bool
  | .holds => .ok true
  | .fails => .ok false
  | .refuses => .error .misapplied
  | .enumerates => .error (misuse (.keyNotText (.int 0)))

end Answer

/-- Members that answer calls alike. -/
structure Family where
  /-- The type that the members come from. -/
  origin : String
  tested : Answer
  /-- Can they be called with nothing? -/
  bare : Bool
  names : List String

/-- A call with nothing, where only that can be said of it whether it is possible. -/
def calledBare (possible : Bool) : Called :=
  if possible then .other else .fails .misapplied

def Family.member (family : Family) (type name : String) : Callable where
  type := type
  name := family.origin ++ "." ++ name
  tested := family.tested.counts
  called := calledBare family.bare

def special (names : List String) : List String :=
  names.map fun name => "__" ++ name ++ "__"

def comparisons : List String :=
  special ["eq", "ge", "gt", "le", "lt", "ne"]

/-- What every thing has.  `comparing` is the type that compares things of the given one. -/
def commonFamilies (type comparing : String) : List Family :=
  [⟨type, .refuses, false,
      special ["delattr", "format", "getattribute", "new", "reduce", "reduce_ex", "setattr"]⟩,
    ⟨type, .refuses, true, special ["dir", "getstate", "hash", "init_subclass", "repr", "sizeof", "str"]⟩,
    ⟨"object", .fails, true, special ["init"]⟩,
    ⟨comparing, .holds, false, comparisons⟩,
    ⟨type, .holds, true, special ["subclasshook"]⟩]

def textFamilies : List Family :=
  [⟨"str", .refuses, false,
      ["center", "count", "endswith", "find", "index", "ljust", "maketrans", "partition", "removeprefix",
        "removesuffix", "replace", "rfind", "rindex", "rjust", "rpartition", "startswith", "zfill"] ++
        special ["add", "contains", "getitem", "mul", "rmul"]⟩,
    ⟨"str", .refuses, true,
      ["capitalize", "casefold", "encode", "expandtabs", "isalnum", "isalpha", "isascii", "isdecimal",
        "isdigit", "isidentifier", "islower", "isnumeric", "isprintable", "isspace", "istitle", "isupper",
        "lower", "lstrip", "rsplit", "rstrip", "split", "splitlines", "strip", "swapcase", "title", "upper"] ++
        special ["getnewargs", "iter", "len"]⟩,
    ⟨"str", .enumerates, false, ["join"]⟩,
    ⟨"str", .holds, false, special ["rmod"]⟩]

/-- Members of a text that fill its gaps: a text without gaps is given back. -/
def fillingFamilies (text : String) : List Family :=
  let answer := if text = "" then Answer.fails else .holds
  [⟨"str", answer, true, ["format"]⟩, ⟨"str", answer, false, "format_map" :: special ["mod"]⟩]

def arithmetic : List String :=
  special ["add", "divmod", "floordiv", "mod", "mul", "pow", "radd", "rdivmod", "rfloordiv", "rmod", "rmul",
    "rpow", "rsub", "rtruediv", "sub", "truediv"]

def shifts : List String :=
  special ["lshift", "rlshift", "rrshift", "rshift"]

def bitOperations : List String :=
  special ["and", "or", "rand", "ror", "rxor", "xor"]

/-- What whole numbers have.  Truth values are whole numbers with bit operations of their own. -/
def intFamilies (type : String) : List Family :=
  [⟨type, .refuses, true,
      ["as_integer_ratio", "bit_count", "bit_length", "conjugate", "to_bytes"] ++
        special ["abs", "bool", "ceil", "float", "floor", "getnewargs", "index", "int", "invert", "neg", "pos",
          "round", "trunc"]⟩,
    ⟨type, .enumerates, false, ["from_bytes"]⟩,
    ⟨"int", .holds, false, arithmetic ++ shifts⟩,
    ⟨type, .holds, false, bitOperations⟩]

def floatFamilies : List Family :=
  [⟨"float", .refuses, true,
      ["as_integer_ratio", "conjugate", "hex", "is_integer"] ++
        special ["abs", "bool", "ceil", "float", "floor", "getnewargs", "int", "neg", "pos", "round", "trunc"]⟩,
    ⟨"float", .refuses, false, "fromhex" :: special ["getformat"]⟩,
    ⟨"float", .holds, false, arithmetic⟩]

def listFamilies : List Family :=
  [⟨"list", .fails, false, ["append", "count"] ++ special ["contains"]⟩,
    ⟨"list", .enumerates, false, ["extend"] ++ special ["iadd"]⟩,
    ⟨"list", .enumerates, true, special ["init"]⟩,
    ⟨"list", .refuses, true, ["clear", "copy", "reverse"] ++ special ["iter", "len", "reversed"]⟩,
    ⟨"list", .refuses, false,
      ["insert"] ++ special ["add", "delitem", "getitem", "imul", "mul", "rmul", "setitem"]⟩,
    ⟨"list", .holds, false, special ["class_getitem"]⟩]

def dictFamilies : List Family :=
  [⟨"dict", .fails, false, ["get", "setdefault"] ++ special ["contains"]⟩,
    ⟨"dict", .enumerates, false, ["fromkeys"] ++ special ["ior"]⟩,
    ⟨"dict", .enumerates, true, ["update"] ++ special ["init"]⟩,
    ⟨"dict", .refuses, true, ["clear", "copy", "items", "keys", "values"] ++ special ["iter", "len", "reversed"]⟩,
    ⟨"dict", .refuses, false, special ["setitem"]⟩,
    ⟨"dict", .holds, false, special ["class_getitem", "or", "ror"]⟩]

def lockFamilies : List Family :=
  [⟨"lock", .refuses, true, ["acquire", "acquire_lock", "locked", "locked_lock"] ++ special ["enter"]⟩]

/-- The families of a type's own members, before those of every thing. -/
def ownFamilies : String → List Family
  | "str" => textFamilies
  | "int" => intFamilies "int"
  | "bool" => intFamilies "bool"
  | "float" => floatFamilies
  | "list" => listFamilies
  | "dict" => dictFamilies
  | "NoneType" => [⟨"NoneType", .refuses, true, special ["bool"]⟩]
  | "function" => [⟨"function", .holds, false, special ["get"]⟩]
  | "module" => [⟨"module", .refuses, false, special ["init"]⟩]
  | "lock" => lockFamilies
  | "method" | "builtin_function_or_method" | "method-wrapper" => [⟨"object", .refuses, true, special ["reduce"]⟩]
  | "CompilerSettings" =>
      [⟨"CompilerSettings", .refuses, true, special ["init", "post_init"]⟩,
        ⟨"CompilerSettings", .holds, false, special ["eq"]⟩]
  | "HostApi" => [⟨"HostApi", .fails, false, ["set"]⟩, ⟨"HostApi", .refuses, true, special ["init"]⟩]
  | "ContextKey" => [⟨"ContextKey", .refuses, false, special ["init"]⟩]
  | "Contributions" =>
      [⟨"Contributions", .fails, false, ["attach"]⟩,
        ⟨"Contributions", .holds, false, ["external_command", "menu"]⟩,
        ⟨"Contributions", .refuses, true, "package_json" :: special ["init"]⟩]
  | _ => []

def comparingType : String → String
  | "bool" => "int"
  | type =>
      if ["str", "int", "float", "list", "dict", "method", "builtin_function_or_method", "method-wrapper"].contains
        type then type
      else "object"

def familiesOf (type : String) : List Family :=
  ownFamilies type ++ commonFamilies type (comparingType type)

/-- Is a type one of this library's own?  Its members are methods then. -/
def isOwnType (type : String) : Bool :=
  ["WhenExpression", "Contributions", "HostApi", "ContextKey", "CompilerSettings"].contains type

/-- Special members that are plain functions of their type, rather than operators. -/
def plainSpecial : List String :=
  special ["ceil", "class_getitem", "dir", "floor", "format", "getformat", "getnewargs", "getstate",
    "init_subclass", "new", "reduce", "reduce_ex", "reversed", "round", "sizeof", "subclasshook", "trunc"]

def memberType (type origin name : String) : String :=
  if isOwnType type && origin = type then "method"
  else if "__".isPrefixOf name && !plainSpecial.contains name then "method-wrapper"
  else "builtin_function_or_method"

def familyMember? (families : List Family) (type name : String) : Option Thing :=
  (families.find? fun family => family.names.contains name).map fun family =>
    .callable (family.member (memberType type family.origin name) name)

end Members

end Extension.CommandLine
