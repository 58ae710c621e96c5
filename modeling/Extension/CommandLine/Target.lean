import Extension.CommandLine.Members

namespace Extension.CommandLine

open Decision Registry

/-! What the target of a command names: a module and, behind a colon, the members that lead from it to a
thing.
-/

abbrev Modules := Entries (Entries Thing)

def splitAt (mark : Char) : List Char → List (List Char)
  | [] => [[]]
  | c :: rest =>
      if c = mark then [] :: splitAt mark rest
      else
        match splitAt mark rest with
        | [] => [[c]]
        | piece :: more => (c :: piece) :: more

/-- The names that lead to a module: those of the modules around it, outermost first, and its own. -/
def modulePath (name : String) : List String :=
  let pieces := splitAt '.' name.toList
  (List.range pieces.length).map fun index =>
    String.ofList (List.intercalate ['.'] (pieces.take (index + 1)))

def moduleMembers (name : String) : Entries Thing :=
  ("__name__", .value (.text name)) ::
    ["__doc__", "__loader__", "__package__", "__spec__"].map fun name => (name, .value .null)

/-- What modules that are read from files have. -/
def fileMembers : Entries Thing :=
  (["__doc__", "__package__", "__file__", "__cached__"].map fun name => (name, .plain "str")) ++
    [("__loader__", .plain "SourceFileLoader"), ("__spec__", .plain "ModuleSpec"), ("__builtins__", .plain "dict")]

def moduleFunction (name : String) (tested : Except Problem Bool) (called : Called) : String × Thing :=
  (name, .callable { type := "function", name, tested, called })

def patternMembers : Entries Thing :=
  (["compile", "escape", "findall", "finditer", "fullmatch", "match", "search", "split", "sub", "subn",
      "template"].map fun name => moduleFunction name Members.refused (.fails .misapplied)) ++
    [moduleFunction "purge" Members.refused .other, ("Match", .kind "Match"), ("Pattern", .kind "Pattern"),
      ("error", .kind "error"), ("__name__", .value (.text "re"))] ++
    (["A", "ASCII", "DEBUG", "DOTALL", "I", "IGNORECASE", "L", "LOCALE", "M", "MULTILINE", "NOFLAG", "S", "T",
      "TEMPLATE", "U", "UNICODE", "VERBOSE", "X"].map fun name => (name, .plain "RegexFlag")) ++
    fileMembers

def exampleMembers : Entries Thing :=
  [("build_example_contributions", .builder Explorer.steps), ("re", .module "re" patternMembers),
    moduleFunction "when" Members.wrapping (.fails .misapplied)] ++
    (["CommandDescriptor", "Contributions", "MenuItem", "ThemeMap"].map fun name => (name, .kind name)) ++
    fileMembers

def ownModules : Modules :=
  [("contributions", []), ("contributions.examples", exampleMembers)]

/-- Looks for a module from the outermost one inwards.  Only `contributions` holds modules. -/
def findModule (modules : Modules) (parent : Option String) : List String → Except Problem (Entries Thing)
  | [] => .error .relativeModule
  | name :: names =>
      match parent.filter (· != "contributions"), modules.lookup name with
      | some holder, _ => .error (.notAPackage name holder)
      | none, none => .error (.unknownModule name)
      | none, some members => if names.isEmpty then .ok members else findModule modules (some name) names

def importModule (modules : Modules) (name : String) : Except Problem Thing :=
  match name.toList with
  | '.' :: _ => .error .relativeModule
  | _ =>
      (findModule (modules ++ ownModules) none (modulePath name)).map fun members =>
        .module name (members ++ moduleMembers name)

def findTarget (modules : Modules) (target : String) : Except Problem Thing :=
  let letters := target.toList
  let name := String.ofList (letters.takeWhile (· != ':'))
  let members := (letters.dropWhile (· != ':')).drop 1
  if name = "" || members.isEmpty then .error (.malformedTarget target)
  else
    match importModule modules name with
    | .error problem => .error problem
    | .ok found => found.follow none ((splitAt '.' members).map String.ofList)

end Extension.CommandLine
