import Extension.CommandLine.Run

namespace Extension.CommandLine

/-! What an executable runs: reads what a run needs, runs it, and writes what has changed. -/

def readEnvironment : IO Environment := do
  let mut environment := []
  for name in [maxAtomsVariable, logLevelVariable] do
    if let some value ← IO.getEnv name then
      environment := (name, value) :: environment
  return environment

/-- The file that the arguments name, if it can be read, and the folders on the way to it. -/
def readFiles (arguments : List String) : IO Files := do
  match (Arguments.read arguments).toOption.bind (·.request.file?) with
  | none => return []
  | some path =>
      let folders := Folder.onTheWay path
      try
        return (Folder.name path, ← IO.FS.readFile path) :: folders
      catch _ =>
        return folders

def writeFiles (old new : Files) : IO Unit := do
  for (name, content) in new do
    unless old.lookup name == some content do
      IO.FS.writeFile name content

def program (arguments : List String) : IO UInt32 := do
  let files ← readFiles arguments
  let outcome := run (← readEnvironment) [] files arguments
  writeFiles files outcome.files
  IO.print outcome.output
  IO.eprint outcome.log
  match outcome.ending with
  | .exit code => return UInt32.ofNat code
  | .stopped .help =>
      IO.print usage
      return 0
  | .stopped .usage =>
      IO.eprint usage
      return 2
  | .passedOn problem => throw (IO.userError problem.message)

end Extension.CommandLine
