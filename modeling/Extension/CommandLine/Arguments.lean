import Extension.CommandLine.Options

namespace Extension.CommandLine

/-! The arguments that the program is called with.

There are two commands, each with its own options behind its name.  What comes first decides: an option that
asks for help ends the reading, and so does a word that cannot be understood.  Words that are left over are
complained about last.
-/

inductive Format where
  | json
  | yaml
deriving DecidableEq, Repr

inductive Request where
  | manifest (target : String) (format : Format) (merge : Option String)
  | compile (target : String) (report : Bool) (dot : Option String)
deriving DecidableEq, Repr

structure Arguments where
  verbose : Bool
  request : Request
deriving DecidableEq, Repr

inductive CommandOption where
  | format
  | merge
  | report
  | dot
deriving DecidableEq, Repr

def usage : String :=
  "usage: contributions [-h] [-v] manifest [-h] [--format json|yaml] [--merge FILE] TARGET\n" ++
  "       contributions [-h] [-v] compile [-h] [--report] [--dot FILE] TARGET\n" ++
  "TARGET is a module and one of its members, with a colon between them.\n"

/-- The options before the name of the command; the only one that is kept makes the log verbose. -/
def programOptions : Options Unit where
  long := [("--help", .flag .help), ("--verbose", .flag (.set ()))]
  short := [('h', .help), ('v', .set ())]

def manifestOptions : Options CommandOption where
  long := [("--help", .flag .help), ("--format", .value .format), ("--merge", .value .merge)]
  short := [('h', .help)]
  accepts option text :=
    match option with
    | .format => text == "json" || text == "yaml"
    | _ => true

def compileOptions : Options CommandOption where
  long := [("--help", .flag .help), ("--report", .flag (.set .report)), ("--dot", .value .dot)]
  short := [('h', .help)]

structure Reading where
  target : Option String := none
  /-- Options with their values, the latest first. -/
  given : List (CommandOption × String) := []
  surplus : Bool := false

namespace Reading

def value? (reading : Reading) (option : CommandOption) : Option String :=
  reading.given.lookup option

def fileName? (reading : Reading) (option : CommandOption) : Option String :=
  (reading.value? option).filter (· != "")

/-- Reads the words of a command.  One word is its target; a separator next to it means nothing. -/
def run (reading : Reading) : List (Item CommandOption) → Except Stop Reading
  | [] => .ok reading
  | .refused :: _ => .error .usage
  | .surplus :: rest => run { reading with surplus := true } rest
  | .value option text :: rest => run { reading with given := (option, text) :: reading.given } rest
  | .flags flags :: rest => do
      let set ← setFlags flags
      run { reading with given := set.reverse ++ reading.given } rest
  | .plain text :: .separator :: rest =>
      match reading.target with
      | none => run { reading with target := some text } rest
      | some _ => run { reading with surplus := true } rest
  | .separator :: .plain text :: rest =>
      match reading.target with
      | none => run { reading with target := some text } rest
      | some _ => run { reading with surplus := true } rest
  | .plain text :: rest =>
      match reading.target with
      | none => run { reading with target := some text } rest
      | some _ => run { reading with surplus := true } rest
  | .separator :: rest => run { reading with surplus := true } rest

end Reading

def readCommand (options : Options CommandOption) (texts : List String) : Except Stop (Reading × String) := do
  let words ← options.classifyAll texts
  let reading ← ({} : Reading).run (options.items words)
  match reading.target with
  | none => throw .usage
  | some target => return (reading, target)

/-- The request that a command's name and words make, and whether words are left over. -/
def readRequest (name : String) (texts : List String) : Except Stop (Request × Bool) := do
  if name = "manifest" then
    let (reading, target) ← readCommand manifestOptions texts
    let format := if reading.value? .format = some "yaml" then Format.yaml else .json
    return (.manifest target format (reading.fileName? .merge), reading.surplus)
  else if name = "compile" then
    let (reading, target) ← readCommand compileOptions texts
    return (.compile target (reading.value? .report).isSome (reading.fileName? .dot), reading.surplus)
  else throw .usage

/-- Reads the words of the program: its own options first, then the name of a command and all that belongs
to it. -/
def readProgram (verbose surplus : Bool) : List (String × Item Unit) → Except Stop Arguments
  | [] => .error .usage
  | (_, .refused) :: _ | (_, .separator) :: _ | (_, .value _ _) :: _ => .error .usage
  | (_, .surplus) :: rest => readProgram verbose true rest
  | (_, .flags flags) :: rest => do
      let set ← setFlags flags
      readProgram (verbose || !set.isEmpty) surplus rest
  | (_, .plain name) :: rest => do
      let (request, more) ← readRequest name (rest.map Prod.fst)
      if surplus || more then throw .usage else return { verbose, request }

def Request.file? : Request → Option String
  | .manifest _ _ merge => merge
  | .compile _ _ dot => dot

def Arguments.read (texts : List String) : Except Stop Arguments := do
  let words ← programOptions.classifyAll texts
  readProgram false false (texts.zip (programOptions.items words))

end Extension.CommandLine
