import Extension.Text.Digit

namespace Extension.CommandLine

open Text

/-! The words of a command line, read against a table of options.

A long option may be cut short as long as no other begins in the same way, and takes its value from the word
after it or behind an equals sign.  Short options are letters that take no value; several may share one
dash, and an equals sign may stand behind the first.  Whatever stands behind a lone `--` is no option, and a
`--` that is given as a value is no value.
-/

inductive Stop where
  | help
  | usage
deriving DecidableEq, Repr

inductive Flag (κ : Type) where
  | help
  | set (option : κ)
deriving DecidableEq, Repr

inductive Effect (κ : Type) where
  | flag (flag : Flag κ)
  | value (option : κ)
deriving DecidableEq, Repr

structure Options (κ : Type) where
  /-- Long options, with their dashes. -/
  long : List (String × Effect κ)
  /-- Short options, without their dash. -/
  short : List (Char × Flag κ)
  accepts : κ → String → Bool := fun _ _ => true

inductive Word (κ : Type) where
  | plain (text : String)
  | separator
  | unknown
  /-- Letters behind a single dash, the first of which is a short option. -/
  | short (letters : List Char)
  | long (effect : Effect κ) (value : Option String)
deriving DecidableEq, Repr

/-- What a word does, together with the word after it if that is its value. -/
inductive Item (κ : Type) where
  | plain (text : String)
  | separator
  | surplus
  | flags (flags : List (Flag κ))
  /-- An option with its value, which is empty if it is none. -/
  | value (option : κ) (text : String)
  | refused
deriving DecidableEq, Repr

def cutAssignment : List Char → List Char × Option (List Char)
  | [] => ([], none)
  | '=' :: value => ([], some value)
  | c :: rest =>
      let (name, value) := cutAssignment rest
      (c :: name, value)

def areDigits (cs : List Char) : Bool :=
  !cs.isEmpty && cs.all fun c => (digitValue? c).isSome

/-- Does a word look like a negative number, such as `-3` or `-.5`?  A line feed may follow. -/
def isNegativeNumber (word : List Char) : Bool :=
  match word with
  | '-' :: rest =>
      let digits := if rest.getLast? = some '\n' then rest.dropLast else rest
      let whole := digits.takeWhile fun c => (digitValue? c).isSome
      match digits.drop whole.length with
      | [] => !whole.isEmpty
      | '.' :: fraction => areDigits fraction
      | _ => false
  | _ => false

namespace Options

variable {κ : Type} (options : Options κ)

def beginningWith (name : List Char) : List (Effect κ) :=
  (options.long.filter fun entry => name.isPrefixOf entry.1.toList).map Prod.snd

def classifyLong (word : List Char) : Except Stop (Word κ) :=
  let (name, value) := cutAssignment word
  let value := value.map String.ofList
  match options.long.lookup (String.ofList name) with
  | some effect => .ok (.long effect value)
  | none =>
      match word with
      | '-' :: '-' :: _ =>
          match options.beginningWith name with
          | [effect] => .ok (.long effect value)
          | [] => .ok (if word.contains ' ' then .plain (String.ofList word) else .unknown)
          | _ => .error .usage
      | _ =>
          .ok (if isNegativeNumber word || word.contains ' ' then .plain (String.ofList word) else .unknown)

/-- What a word is.  A word that could be several options is an error. -/
def classify (text : String) : Except Stop (Word κ) :=
  match text.toList with
  | ['-'] => .ok (.plain text)
  | '-' :: letter :: letters =>
      match options.short.lookup letter with
      | some _ => .ok (.short (letter :: letters))
      | none => options.classifyLong text.toList
  | _ => .ok (.plain text)

def classifyAll : List String → Except Stop (List (Word κ))
  | [] => .ok []
  | "--" :: rest => .ok (.separator :: rest.map .plain)
  | text :: rest => do
      let word ← options.classify text
      return word :: (← classifyAll rest)

/-- The flags of letters behind one dash, if all of them are short options. -/
def cluster (letters : List Char) : Option (List (Flag κ)) :=
  letters.mapM (options.short.lookup ·)

/-- The letters without the equals sign behind the first, which needs letters behind it. -/
def withoutSign (letters : List Char) : Option (List Char) :=
  match letters with
  | [_, '='] => none
  | first :: '=' :: rest => some (first :: rest)
  | letters => some letters

def clusterItem (letters : List Char) : Item κ :=
  match (withoutSign letters).bind options.cluster with
  | some flags => .flags flags
  | none => .refused

def valueItem (option : κ) (text : String) : Item κ :=
  if options.accepts option text then .value option text else .refused

def items : List (Word κ) → List (Item κ)
  | [] => []
  | .plain text :: rest => .plain text :: items rest
  | .separator :: rest => .separator :: items rest
  | .unknown :: rest => .surplus :: items rest
  | .short letters :: rest => options.clusterItem letters :: items rest
  | .long (.flag flag) none :: rest => .flags [flag] :: items rest
  | .long (.flag _) (some _) :: rest => .refused :: items rest
  | .long (.value option) (some "--") :: rest => .value option "" :: items rest
  | .long (.value option) (some text) :: rest => options.valueItem option text :: items rest
  | .long (.value option) none :: .plain text :: rest => options.valueItem option text :: items rest
  | .long (.value _) none :: rest => .refused :: items rest

end Options

/-- The options that flags set, up to one that asks for help. -/
def setFlags {κ : Type} : List (Flag κ) → Except Stop (List (κ × String))
  | [] => .ok []
  | .help :: _ => .error .help
  | .set option :: rest => do return (option, "") :: (← setFlags rest)

end Extension.CommandLine
