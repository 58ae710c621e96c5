import Extension.Number.Reading
import Extension.Text.Quoted
import Extension.Text.UpperCase

namespace Extension

open Text Number

/-! Settings of the compiler: how many tests one path may read, and what the command line logs.

They are read from the environment when they are needed.
-/

/-- Log levels by name, with the rank below which a message is dropped. -/
def levelRanks : List (String × Nat) :=
  [("CRITICAL", 50), ("FATAL", 50), ("ERROR", 40), ("WARNING", 30), ("WARN", 30), ("INFO", 20),
    ("DEBUG", 10), ("NOTSET", 0)]

/-- The rank of a level, whose name may be written in any case. -/
def levelRank? (name : String) : Option Nat :=
  levelRanks.lookup (upperCase name)

abbrev Environment := List (String × String)

def maxAtomsVariable : String := "CONTRIBUTIONS_MAX_ATOMS"

def logLevelVariable : String := "CONTRIBUTIONS_LOG_LEVEL"

structure Settings where
  maxAtoms : Nat := 31
  logLevel : String := "WARNING"
  positive : 0 < maxAtoms := by decide

instance : Inhabited Settings := ⟨{}⟩

inductive SettingsFault where
  | notPositive (maxAtoms : Int)
  | notAnInteger (text : String)
  | unknownLevel (name : String)
deriving DecidableEq, Repr

def SettingsFault.message : SettingsFault → String
  | .notPositive maxAtoms =>
      if isWritten maxAtoms then s!"max_atoms must be positive, got {maxAtoms}" else unwrittenText
  | .notAnInteger text => s!"{maxAtomsVariable} must be an integer, got {quoted text}"
  | .unknownLevel name => s!"Unknown log level: {name}"

namespace Settings

theorem toNat_positive {maxAtoms : Int} (positive : 0 < maxAtoms) : 0 < maxAtoms.toNat := by
  omega

def make (maxAtoms : Int) (logLevel : String) : Except SettingsFault Settings :=
  if positive : 0 < maxAtoms then
    match levelRank? logLevel with
    | some _ => .ok { maxAtoms := maxAtoms.toNat, logLevel, positive := toNat_positive positive }
    | none => .error (.unknownLevel logLevel)
  else .error (.notPositive maxAtoms)

def ofMaxAtoms (maxAtoms : Int) : Except SettingsFault Settings :=
  make maxAtoms "WARNING"

/-- A variable without the blanks around it; one that is not set counts as blank. -/
def setting (environment : Environment) (name : String) : String :=
  String.ofList (strip ((environment.lookup name).getD "").toList)

/-- Reads the settings from the environment.  Blank variables leave the defaults. -/
def load (environment : Environment) : Except SettingsFault Settings := do
  let rawMax := setting environment maxAtomsVariable
  let maxAtoms ←
    if rawMax = "" then pure 31
    else match readInteger? rawMax.toList with
      | some value => pure value
      | none => throw (.notAnInteger rawMax)
  let rawLevel := setting environment logLevelVariable
  make maxAtoms (upperCase (if rawLevel = "" then "WARNING" else rawLevel))

end Settings

end Extension
