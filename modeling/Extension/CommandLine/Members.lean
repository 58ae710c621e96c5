import Extension.CommandLine.Members.Family

namespace Extension.CommandLine

open Decision Registry

/-! The members of things, by name.  A member is a thing of its own, and may depend on what the thing holds. -/

namespace Members

/-- A method of a type, by what its calls come to. -/
def method (type name : String) (tested : Except Problem Bool) (called : Called) : Thing :=
  .callable { type := "method", name := type ++ "." ++ name, tested, called }

def nativeMethod (type name : String) (tested : Except Problem Bool) (called : Called) : Thing :=
  .callable { type := "builtin_function_or_method", name := type ++ "." ++ name, tested, called }

def refused : Except Problem Bool :=
  .error .misapplied

def raised (kind : RaisedKind) (text : String) : Problem :=
  .failure (.fault (.raised ⟨kind, text⟩))

/-- The complaint of a rule that asks its accessor for something that accessors lack. -/
def lacking (member : String) : Except Problem Bool :=
  .error (.noAttribute (.thing "ContextAccessor") member)

/-- An expression would be made for something that cannot be called. -/
def wrapping : Except Problem Bool :=
  .error (Answer.misuse (.notCallable "ContextAccessor"))

def sortable (items : List Value) : Bool :=
  items.length ≤ 1 || items.all (·.number?.isSome) || items.all (·.typeName == "str")

def null : Thing :=
  .value .null

def text : Thing :=
  .plain "str"

def valueMember? (value : Value) (name : String) : Option Thing :=
  match value, name with
  | .text held, "translate" =>
      let tested := match held.toList with
        | [] => .ok false
        | c :: _ => .error (Answer.misuse (.keyNotText (.int c.toNat)))
      some (nativeMethod "str" name tested (.fails .misapplied))
  | .text held, _ => familyMember? (fillingFamilies held) "str" name
  | .int n, "real" | .int n, "numerator" => some (.value (.int n))
  | .int _, "imag" => some (.value (.int 0))
  | .int _, "denominator" => some (.value (.int 1))
  | .int n, "to_bytes" =>
      some (nativeMethod "int" name refused (if n < 0 then .fails .negativeBytes else .other))
  | .bool b, "real" | .bool b, "numerator" => some (.value (.int (if b then 1 else 0)))
  | .bool _, "imag" => some (.value (.int 0))
  | .bool _, "denominator" => some (.value (.int 1))
  | .float x, "real" => some (.value (.float x))
  | .float _, "imag" => some (.plain "float")
  | .list items, "pop" =>
      some (nativeMethod "list" name refused (if items.isEmpty then .fails .emptyList else .other))
  | .list items, "sort" => some (nativeMethod "list" name refused (calledBare (sortable items)))
  | .list _, "remove" =>
      some (nativeMethod "list" name (.error (raised .value "list.remove(x): x not in list")) (.fails .misapplied))
  | .list _, "index" =>
      some (nativeMethod "list" name (.error (raised .value "ContextAccessor is not in list")) (.fails .misapplied))
  | .dict entries, "popitem" =>
      some (nativeMethod "dict" name refused
        (if entries.isEmpty then .fails (raised .key "popitem(): dictionary is empty") else .other))
  | .dict _, "pop" | .dict _, "__getitem__" | .dict _, "__delitem__" =>
      some (nativeMethod "dict" name (.error (raised .key "ContextAccessor")) (.fails .misapplied))
  | .contextKey key, "key" => some (.value (.text key))
  | .contextKey _, "value" | .contextKey _, "_value" => some null
  | .contextKey _, "_api" => some (.hostLink false)
  | .contextKey _, "set" => some (method "ContextKey" name (.error (.failure .notAttached)) (.fails .misapplied))
  | .null, "__doc__" | .list _, "__hash__" | .dict _, "__hash__" => some null
  | _, _ => none

def expressionMember? (held : Expression Script) (name : String) : Option Thing :=
  match name with
  | "fn" => some (.function { held with settings := none })
  | "passes" => some (.value (.int held.passes))
  | "settings" => some ((held.settings.map .settings).getD null)
  | "_lock" => some (.plain "lock")
  | "compile" | "__str__" => some (method "WhenExpression" name refused (.compile held))
  | "explore" | "_explore" => some (method "WhenExpression" name refused (.explore held))
  | "__init__" => some (method "WhenExpression" name wrapping (.fails .misapplied))
  | _ => none

def contributionsMember? (draft : Draft) (name : String) : Option Thing :=
  let registry := draft.registry
  match name with
  | "api" => some (.hostLink registry.host.isSome)
  | "contributions" =>
      some (.value (.list (List.replicate (registry.commands.length + registry.menus.length) .null)))
  | "command" => some (method "Contributions" name (lacking "id") (.fails .misapplied))
  | "context_key" =>
      some (method "Contributions" name (.error (Answer.misuse (.emptyKey (.text "ContextAccessor"))))
        (.fails .misapplied))
  | "assert_registered" => some (method "Contributions" name refused (.assertRegistered draft))
  | "to_json" => some (method "Contributions" name refused (.assemble draft))
  | _ => none

def hostLinkMember? (attached : Bool) (name : String) : Option Thing :=
  match name with
  | "value" => some (if attached then .plain "Host" else null)
  | "is_attached" => some (.value (.bool attached))
  | "get" =>
      some (method "HostApi" name refused (if attached then .other else .fails (.failure .notAttached)))
  | _ => none

/-- Members of functions that are no functions themselves. -/
def functionMember? (name : String) : Option Thing :=
  match name with
  | "__name__" | "__qualname__" | "__module__" => some text
  | "__code__" => some (.plain "code")
  | "__closure__" => some (.plain "tuple")
  | "__defaults__" | "__kwdefaults__" | "__doc__" => some null
  | "__annotations__" | "__builtins__" | "__dict__" | "__globals__" => some (.plain "dict")
  | _ => none

def making (name : String) : Callable :=
  let make := fun (tested : Except Problem Bool) (called : Called) =>
    ({ type := "type", name, tested, called } : Callable)
  match name with
  | "str" | "bool" | "ThemeMap" => make (.ok true) .other
  | "MenuItem" | "error" | "type" => make (.ok true) (.fails .misapplied)
  | "list" | "dict" => make Answer.enumerates.counts .other
  | "int" | "float" | "NoneType" | "HostApi" | "CompilerSettings" => make refused .other
  | "Contributions" => make refused .blank
  | "WhenExpression" => make wrapping (.fails .misapplied)
  | _ => make refused (.fails .misapplied)

/-- The members of a type that need a thing of it, with what they ask for first. -/
def asking : String → List (String × String)
  | "Contributions" =>
      [("to_json", "package_json"), ("package_json", "contributions"), ("assert_registered", "contributions")]
  | "WhenExpression" =>
      [("compile", "explore"), ("explore", "_lock"), ("_explore", "settings"), ("__str__", "compile"),
        ("__repr__", "fn")]
  | "HostApi" => [("get", "value")]
  | "ContextKey" => [("__str__", "key"), ("__repr__", "key")]
  | _ => []

def defaults : String → List (String × Thing)
  | "CompilerSettings" => [("max_atoms", .value (.int 31)), ("log_level", .value (.text "WARNING"))]
  | "CommandDescriptor" => [("activates", .value (.bool true)), ("category", null), ("icon", null)]
  | "MenuItem" => [("alt", null), ("when", null)]
  | "ThemeMap" => [("light", null), ("dark", null), ("high_contrast", null), ("high_contrast_dark", null)]
  | "HostApi" => [("is_attached", .plain "property")]
  | "ContextKey" => [("value", .plain "property")]
  | _ => []

/-- The types whose things are records with a text of their own. -/
def isRecord (kind : String) : Bool :=
  ["CommandDescriptor", "CompilerSettings", "MenuItem", "ThemeMap"].contains kind

/-- Members of a type that want a thing of it, or any thing. -/
def unboundFamilies (kind : String) : List Family :=
  let texts := special ["hash", "repr", "sizeof", "str"]
  let ofAnything := special ["dir", "getstate", "reduce"] ++ (if isOwnType kind then texts else [])
  let starting := if ["list", "dict", "module"].contains kind then Answer.refuses else .fails
  let called := (ownFamilies kind).flatMap Family.names
  [⟨kind, .enumerates, false, ["from_bytes", "fromkeys"].filter called.contains⟩,
    ⟨kind, .holds, false, ["__class_getitem__"].filter called.contains⟩,
    ⟨if isOwnType kind then kind else "object",
      if isRecord kind || ["WhenExpression", "ContextKey"].contains kind then .refuses else starting, false,
      special ["init"]⟩,
    ⟨"object", .holds, false, ofAnything⟩,
    ⟨kind, .refuses, false,
      called ++ comparisons ++ texts ++
        special ["delattr", "format", "getattribute", "new", "reduce_ex", "setattr"]⟩,
    ⟨kind, .refuses, true, special ["init_subclass"]⟩,
    ⟨kind, .holds, true, special ["subclasshook"]⟩]

/-- Members of values that a type only describes. -/
def described : String → List String
  | "int" | "bool" => ["denominator", "imag", "numerator", "real"]
  | "float" => ["imag", "real"]
  | _ => []

def dependent : String → List String
  | "str" => ["format", "format_map", "translate", "__mod__"]
  | "list" => ["index", "pop", "remove", "sort"]
  | "dict" => ["pop", "popitem", "__delitem__", "__getitem__"]
  | "Contributions" => ["command", "context_key"]
  | "ContextKey" => ["set"]
  | _ => []

def kindMember? (kind name : String) : Option Thing :=
  let unbound := fun (tested : Except Problem Bool) =>
    Thing.callable { type := "function", name := kind ++ "." ++ name, tested, called := .fails .misapplied }
  match (defaults kind).lookup name, (asking kind).lookup name with
  | some held, _ => some held
  | none, some first => some (unbound (lacking first))
  | none, none =>
      match name with
      | "__name__" | "__qualname__" | "__module__" | "__doc__" => some text
      | "__dict__" => some (.plain "mappingproxy")
      | "__bases__" | "__mro__" => some (.plain "tuple")
      | "__call__" => some (.callable { making kind with type := "method-wrapper", name := "type.__call__" })
      | "mro" => some (nativeMethod "type" name refused .other)
      | _ =>
          if (described kind).contains name then some (.plain "getset_descriptor")
          else if (dependent kind).contains name then some (unbound refused)
          else
            ((unboundFamilies kind).find? fun family => family.names.contains name).map fun family =>
              .callable (family.member "function" name)

def commonMember? (thing : Thing) (name : String) : Option Thing :=
  match name with
  | "__class__" => some (.kind thing.typeName)
  | "__doc__" => some text
  | "__module__" => if isOwnType thing.typeName then some text else none
  | "__dict__" =>
      if isOwnType thing.typeName || thing.typeName = "module" then some (.plain "dict") else none
  | _ => familyMember? (familiesOf thing.typeName) thing.typeName name

/-- Members of a callable.  Its owner is the thing whose member it is. -/
def callableMember? (held : Callable) (owner : Option Thing) (name : String) : Option Thing :=
  let isFunction := held.type = "function" || held.type = "method"
  match name with
  | "__call__" => some (.callable { held with type := "method-wrapper", name := held.type ++ ".__call__" })
  | "__name__" | "__qualname__" | "__doc__" => some text
  | "__module__" => some (if isFunction then text else null)
  | "__text_signature__" => if isFunction then none else some text
  | "__self__" => if held.type = "function" then none else owner
  | "__func__" => if held.type = "method" then some (.plain "function") else none
  | _ => if isFunction then functionMember? name else none

end Members

namespace Thing

open Members

/-- Members that come from what a thing holds.  The owner of a member is the thing that it was found in. -/
def ownMember? (thing : Thing) (owner : Option Thing) (name : String) : Option Thing :=
  match thing with
  | .function held =>
      if name = "__call__" then some (.function { held with name := "function.__call__" })
      else functionMember? name
  | .builder _ => if name = "__call__" then some thing else functionMember? name
  | .expression held => expressionMember? held name
  | .contributions draft => contributionsMember? draft name
  | .hostLink attached => hostLinkMember? attached name
  | .settings held =>
      match name with
      | "max_atoms" => some (.value (.int held.maxAtoms))
      | "log_level" => some (.value (.text held.logLevel))
      | _ => none
  | .value held => valueMember? held name
  | .callable held => callableMember? held owner name
  | .kind held => kindMember? held name
  | .module _ members => members.lookup name
  | .plain "str" => valueMember? (.text "str") name
  | .plain _ => none

def member? (thing : Thing) (owner : Option Thing) (name : String) : Option Thing :=
  thing.ownMember? owner name <|> commonMember? thing name

def follow (owner : Option Thing) (thing : Thing) : List String → Except Problem Thing
  | [] => .ok thing
  | name :: names =>
      match thing.member? owner name with
      | some found => follow (some thing) found names
      | none => .error (.noAttribute thing.holder name)

end Thing

end Extension.CommandLine
