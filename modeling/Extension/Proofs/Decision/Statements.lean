import Mathlib.Data.List.Nodup
import Extension.Decision.Dot

namespace Extension.Decision.Dot

/-! The lines of a diagram.

A line declares a node or draws an edge, and can be read back.  The name in front tells where it ends, and so does the
label, in which nothing but the last quotation mark stands without a backslash in front of it.
-/

inductive Statement where
  | declare (name text : String)
  | edge (source : String) (outcome : Option Bool) (target : String)
deriving DecidableEq

/-- What stands behind the target of an edge. -/
def edgeEnd : Option Bool → String
  | none => ";"
  | some true => " [label=\"true\", style=solid];"
  | some false => " [label=\"false\", style=dashed];"

def Statement.line : Statement → String
  | .declare name text => s!"  {name} [label={label text}];"
  | .edge source outcome target => s!"  {source} -> {target}{edgeEnd outcome}"

/-- Replaces a character by others wherever it stands. -/
def replacing (c : Char) (others : List Char) (text : List Char) : List Char :=
  text.flatMap fun d => if d = c then others else [d]

/-- The character that an escape sequence stands for. -/
def unescaped : Char → Option Char
  | '\\' => some '\\'
  | '"' => some '"'
  | 'n' => some '\n'
  | _ => none

/-- Reads a text up to its closing quotation mark, and gives what stands behind that, too. -/
def readText : List Char → Option (List Char × List Char)
  | [] => none
  | '"' :: rest => some ([], rest)
  | '\\' :: sign :: rest =>
      (unescaped sign).bind fun c => (readText rest).map fun (text, rest) => (c :: text, rest)
  | c :: rest => (readText rest).map fun (text, rest) => (c :: text, rest)

def readOutcome (rest : List Char) : Option (Option Bool) :=
  [none, some true, some false].find? fun outcome => (edgeEnd outcome).toList == rest

def readEdge (source : String) (rest : List Char) : Option Statement :=
  (readOutcome (rest.dropWhile Char.isAlphanum)).map fun outcome =>
    .edge source outcome (String.ofList (rest.takeWhile Char.isAlphanum))

def readDeclaration (name : String) (rest : List Char) : Option Statement :=
  match readText rest with
  | some (text, [']', ';']) => some (.declare name (String.ofList text))
  | _ => none

/-- Reads a line: the name in front, and what its sign says it is. -/
def readLine : List Char → Option Statement
  | ' ' :: ' ' :: line =>
      let name := String.ofList (line.takeWhile Char.isAlphanum)
      match line.dropWhile Char.isAlphanum with
      | ' ' :: '[' :: 'l' :: 'a' :: 'b' :: 'e' :: 'l' :: '=' :: '"' :: rest => readDeclaration name rest
      | ' ' :: '-' :: '>' :: ' ' :: rest => readEdge name rest
      | _ => none
  | _ => none

def IsName (name : String) : Prop :=
  ∀ c ∈ name.toList, c.isAlphanum = true

/-- The names in a statement are names. -/
def Statement.IsNamed : Statement → Prop
  | .declare name _ => IsName name
  | .edge source _ target => IsName source ∧ IsName target

theorem readText_escaped (text rest : List Char) :
    readText (text.flatMap escapeChar ++ '"' :: rest) = some (text, rest) := by
  induction text with
  | nil => rfl
  | cons c text ih =>
      rw [List.flatMap_cons, List.append_assoc, escapeChar]
      split
      · next same =>
          subst same
          simp [readText, unescaped, ih]
      · split
        · next same =>
            subst same
            simp [readText, unescaped, ih]
        · split
          · next same =>
              subst same
              simp [readText, unescaped, ih]
          · next backslash mark _ =>
              rw [List.singleton_append, readText, ih]
              · rfl
              · exact fun same => mark same
              · exact fun sign rest same => absurd same backslash

theorem escapeChar_ne (c : Char) : '\n' ∉ escapeChar c := by
  rw [escapeChar]
  split
  · decide
  · split
    · decide
    · split
      · decide
      · next line => simpa [eq_comm] using line

/-- Escaping backslashes first, then quotation marks, then line ends, is escaping each character on its own. -/
theorem replacing_in_turn (text : List Char) :
    replacing '\n' ['\\', 'n'] (replacing '"' ['\\', '"'] (replacing '\\' ['\\', '\\'] text)) =
      text.flatMap escapeChar := by
  simp only [replacing, List.flatMap_assoc]
  refine List.flatMap_congr fun c _ => ?_
  rw [escapeChar]
  split
  · decide
  · next backslash =>
      split
      · next mark => subst mark; decide
      · next mark =>
          split
          · next line => subst line; decide
          · next line => simp [mark, line]

theorem takeWhile_name {name : String} (named : IsName name) {c : Char} (stop : c.isAlphanum = false)
    (rest : List Char) :
    (name.toList ++ c :: rest).takeWhile Char.isAlphanum = name.toList ∧
      (name.toList ++ c :: rest).dropWhile Char.isAlphanum = c :: rest := by
  constructor
  · rw [List.takeWhile_append_of_pos named, List.takeWhile_cons_of_neg (by simp [stop]), List.append_nil]
  · rw [List.dropWhile_append_of_pos named, List.dropWhile_cons_of_neg (by simp [stop])]

theorem edgeEnd_stop (outcome : Option Bool) : ∃ c rest, (edgeEnd outcome).toList = c :: rest ∧ c.isAlphanum = false := by
  cases outcome with
  | none => exact ⟨_, _, rfl, by decide⟩
  | some answer => cases answer <;> exact ⟨_, _, rfl, by decide⟩

theorem readOutcome_end (outcome : Option Bool) : readOutcome (edgeEnd outcome).toList = some outcome := by
  cases outcome with
  | none => decide
  | some answer => cases answer <;> decide

theorem declare_line (name text : String) :
    (Statement.declare name text).line.toList =
      ' ' :: ' ' :: (name.toList ++ ' ' :: '[' :: 'l' :: 'a' :: 'b' :: 'e' :: 'l' :: '=' :: '"' ::
        (text.toList.flatMap escapeChar ++ '"' :: [']', ';'])) := by
  simp [Statement.line, label, toString]

theorem edge_line (source : String) (outcome : Option Bool) (target : String) :
    (Statement.edge source outcome target).line.toList =
      ' ' :: ' ' :: (source.toList ++ ' ' :: '-' :: '>' :: ' ' :: (target.toList ++ (edgeEnd outcome).toList)) := by
  simp [Statement.line, toString]

theorem readLine_line {statement : Statement} (named : statement.IsNamed) :
    readLine statement.line.toList = some statement := by
  have blank : Char.isAlphanum ' ' = false := by decide
  cases statement with
  | declare name text =>
      obtain ⟨front, behind⟩ := takeWhile_name named blank
        ('[' :: 'l' :: 'a' :: 'b' :: 'e' :: 'l' :: '=' :: '"' :: (text.toList.flatMap escapeChar ++ '"' :: [']', ';']))
      rw [declare_line, readLine, front, behind]
      simp only [readDeclaration, readText_escaped, String.ofList_toList]
  | edge source outcome target =>
      obtain ⟨sourceNamed, targetNamed⟩ := named
      obtain ⟨c, rest, last, stop⟩ := edgeEnd_stop outcome
      obtain ⟨front, behind⟩ := takeWhile_name sourceNamed blank ('-' :: '>' :: ' ' :: (target.toList ++ c :: rest))
      obtain ⟨targetFront, targetBehind⟩ := takeWhile_name targetNamed stop rest
      rw [edge_line, last, readLine, front, behind]
      simp only [readEdge, targetFront, targetBehind, String.ofList_toList]
      rw [← last, readOutcome_end]
      rfl

theorem IsName.single {name : String} (named : IsName name) : '\n' ∉ name.toList :=
  fun member => absurd (named _ member) (by decide)

/-- No text breaks out of its line. -/
theorem line_single {statement : Statement} (named : statement.IsNamed) : '\n' ∉ statement.line.toList := by
  cases statement with
  | declare name text =>
      have front := IsName.single named
      have escaped : '\n' ∉ text.toList.flatMap escapeChar := by
        intro member
        obtain ⟨c, _, inside⟩ := List.mem_flatMap.mp member
        exact escapeChar_ne c inside
      simp [declare_line, front, escaped]
  | edge source outcome target =>
      have front := named.1.single
      have behind := named.2.single
      have last : '\n' ∉ (edgeEnd outcome).toList := by
        cases outcome with
        | none => decide
        | some answer => cases answer <;> decide
      simp [edge_line, front, behind, last]

theorem nodeName_toList (place : Nat) : (nodeName place).toList = 'n' :: Nat.toDigits 10 (place + 1) := by
  simp [nodeName, toString]

theorem nodeName_isName (place : Nat) : IsName (nodeName place) := by
  intro c member
  rw [nodeName_toList] at member
  rcases List.mem_cons.mp member with rfl | digit
  · decide
  · simp [Char.isAlphanum, Nat.isDigit_of_mem_toDigits (by decide) (by decide) digit]

theorem nodeName_injective : Function.Injective nodeName := by
  intro place other same
  have digits := congrArg String.toList same
  rw [nodeName_toList, nodeName_toList] at digits
  have numbers := congrArg (Nat.ofDigitChars 10 · 0) (List.cons.inj digits).2
  simp only [Nat.ofDigitChars_toDigits (show 1 < 10 by decide) (Nat.le_refl 10)] at numbers
  exact Nat.succ.inj numbers

def rootName : String :=
  "ROOT"

def resultName (value : Bool) : String :=
  if value then "TRUE" else "FALSE"

theorem rootName_isName : IsName rootName :=
  List.all_eq_true.mp (show rootName.toList.all Char.isAlphanum = true from rfl)

theorem resultName_isName (value : Bool) : IsName (resultName value) := by
  cases value with
  | true => exact List.all_eq_true.mp (show "TRUE".toList.all Char.isAlphanum = true from rfl)
  | false => exact List.all_eq_true.mp (show "FALSE".toList.all Char.isAlphanum = true from rfl)

theorem resultName_injective : ∀ {value other : Bool}, resultName value = resultName other → value = other := by
  decide

theorem nodeName_ne_root (place : Nat) : nodeName place ≠ rootName := by
  intro same
  have letters := congrArg String.toList same
  rw [nodeName_toList] at letters
  cases letters

theorem nodeName_ne_result (place : Nat) (value : Bool) : nodeName place ≠ resultName value := by
  intro same
  have letters := congrArg String.toList same
  rw [nodeName_toList] at letters
  cases value <;> cases letters

end Extension.Decision.Dot
