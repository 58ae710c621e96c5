import Extension.Proofs.Clause.Parsing
import Extension.Rule.Basic

namespace Extension.Decision

open Clause Text

/-! What a probe of a key is written as, and whether it reads back.

Nothing is quoted in a clause.  A probe is refused when its key or its operand is empty, or its operand has an integer
that is not written.  Every other one is written as it is; `Probe.Writable` says which of them a clause can hold.
-/

namespace Probe

/-- What a probe compares its key with, if it does. -/
def operand? : Probe → Option (Comparison × String)
  | .truthy => none
  | .equals value => some (.equals, value.operand)
  | .matches pattern => some (.matches, pattern.operand)

def text (probe : Probe) (name : String) : String :=
  match probe.operand? with
  | none => name
  | some (how, operand) => s!"{name} {how.sign} {operand}"

/-- The expression that asks for what a probe of a key asks for. -/
def expr (probe : Probe) (name : String) : Expr :=
  match probe.operand? with
  | none => .key name
  | some (how, operand) => .comparison how (.key name) (.literal (.text operand))

def isWritten : Probe → Bool
  | .truthy => true
  | .equals value => value.isWritten
  | .matches pattern => pattern.isWritten

def Admitted (probe : Probe) : Prop :=
  probe.isWritten = true ∧ ∀ how operand, probe.operand? = some (how, operand) → operand ≠ ""

/-- Nothing in the probe of the key needs quotation marks. -/
def Writable (probe : Probe) (name : String) : Prop :=
  IsKey name.toList ∧
    match probe.operand? with
    | none => ¬ IsReserved name.toList
    | some (_, operand) => IsOperand operand.toList

theorem text_toList (probe : Probe) (name : String) :
    (probe.text name).toList =
      match probe.operand? with
      | none => name.toList
      | some (how, operand) => name.toList ++ ' ' :: how.sign.toList ++ ' ' :: operand.toList := by
  rw [text]
  cases probe.operand? with
  | none => rfl
  | some compared => simp [toString]

theorem Writable.isTest {probe : Probe} {name : String} (writable : probe.Writable name) :
    IsTest (probe.text name).toList := by
  rw [text_toList]
  obtain ⟨key, free⟩ := writable
  cases compared : probe.operand? with
  | none =>
      rw [compared] at free
      exact .key key free
  | some found =>
      rw [compared] at free
      exact .comparison found.1 key free

theorem Writable.spells {probe : Probe} {name : String} (writable : probe.Writable name) :
    Spells (probe.text name).toList (probe.expr name) := by
  rw [text_toList, expr]
  obtain ⟨key, free⟩ := writable
  cases compared : probe.operand? with
  | none =>
      rw [compared] at free
      simpa using Spells.key key free
  | some found =>
      obtain ⟨how, operand⟩ := found
      rw [compared] at free
      simpa using spells_comparison how key free

theorem atomText?_expr (probe : Probe) (name : String) : ∃ text, (probe.expr name).atomText? = some text := by
  rw [expr]
  cases probe.operand? with
  | none => exact ⟨_, rfl⟩
  | some compared => exact ⟨_, rfl⟩

/-- A probe reads back as itself just when a clause can hold it. -/
theorem parse_text_iff (probe : Probe) (name : String) :
    parse (probe.text name) = .ok (probe.expr name) ↔ probe.Writable name := by
  constructor
  · intro read
    obtain ⟨_, single⟩ := probe.atomText?_expr name
    obtain ⟨spells, uncut⟩ := parse_single read single
    rw [text_toList] at uncut
    rw [expr] at spells
    rw [Writable]
    cases compared : probe.operand? with
    | none =>
        rw [compared] at spells
        generalize strip (probe.text name).toList = written at spells
        cases spells with
        | key key free => simpa using ⟨key, free⟩
    | some found =>
        obtain ⟨how, operand⟩ := found
        rw [compared] at spells uncut
        generalize strip (probe.text name).toList = written at spells
        have inside (sign : Connective) : ¬ Holds sign.sign.toList operand.toList := by
          rintro ⟨before, after, split⟩
          refine uncut sign ⟨name.toList ++ ' ' :: how.sign.toList ++ ' ' :: before, after, ?_⟩
          simp [split]
        generalize spelled : Expr.comparison how (.key name) (.literal (.text operand)) = shape at spells
        cases spells with
        | comparison compares given =>
            cases spelled
            simp only [String.toList_ofList] at inside ⊢
            exact ⟨compares.key, given, trimmed_strip _, inside .both, inside .either⟩
  · intro writable
    exact writable.isTest.parse writable.spells

end Probe

theorem Test.comparison_ok_iff {key sign operand : String} {test : Test} :
    comparison key sign operand = .ok test ↔ operand ≠ "" ∧ test = ⟨s!"{key} {sign} {operand}", key⟩ := by
  rw [comparison]
  by_cases empty : operand = ""
  · simp [empty]
  · simp [empty, eq_comm]

theorem Test.ofProbe_ok_iff {key : String} {probe : Probe} {test : Test} :
    ofProbe key probe = .ok test ↔ probe.Admitted ∧ test = ⟨probe.text key, key⟩ := by
  cases probe with
  | truthy => simp [ofProbe, Probe.Admitted, Probe.isWritten, Probe.operand?, Probe.text, eq_comm]
  | equals value =>
      cases written : value.isWritten with
      | false => simp [ofProbe, Value.operand?_eq, written, Probe.Admitted, Probe.isWritten]
      | true =>
          simp [ofProbe, Value.operand?_eq, written, Test.comparison_ok_iff, Probe.Admitted, Probe.isWritten,
            Probe.operand?, Probe.text, Comparison.sign]
  | «matches» pattern =>
      cases written : pattern.isWritten with
      | false => simp [ofProbe, Pattern.operand?_eq, written, Probe.Admitted, Probe.isWritten]
      | true =>
          simp [ofProbe, Pattern.operand?_eq, written, Test.comparison_ok_iff, Probe.Admitted, Probe.isWritten,
            Probe.operand?, Probe.text, Comparison.sign]

end Extension.Decision

namespace Extension.Rule

open Decision Clause

theorem makeTest_ok_iff {key : Value} {probe : Probe} {test : Test} :
    makeTest (.ok key) (.ok probe) = .ok test ↔
      ∃ name, keyName key = .ok name ∧ probe.Admitted ∧ test = ⟨probe.text name, name⟩ := by
  rw [makeTest]
  cases named : keyName key with
  | error fault => simp
  | ok name => simp [Test.ofProbe_ok_iff]

/-- A test is made of every key and operand that are not empty, and reads back just when nothing in it needs
quotation marks. -/
theorem makeTest_reads_back_iff (key : Value) (probe : Probe) :
    ((∃ test, makeTest (.ok key) (.ok probe) = .ok test) ↔ (∃ name, keyName key = .ok name) ∧ probe.Admitted) ∧
    ∀ test, makeTest (.ok key) (.ok probe) = .ok test →
      (parse test.text = .ok (probe.expr test.key) ↔ probe.Writable test.key) := by
  constructor
  · simp only [makeTest_ok_iff]
    constructor
    · rintro ⟨test, name, named, admitted, _⟩
      exact ⟨⟨name, named⟩, admitted⟩
    · rintro ⟨⟨name, named⟩, admitted⟩
      exact ⟨_, name, named, admitted, rfl⟩
  · intro test made
    obtain ⟨name, _, _, rfl⟩ := makeTest_ok_iff.mp made
    exact probe.parse_text_iff name

/-- A blank operand is admitted, and its test is refused where it is read; an operand that holds a sign is
admitted, and its test is read as another condition. -/
theorem blank_operand_not_read_back :
    makeTest (.ok (.text "a")) (.ok (.equals (.text " "))) = .ok ⟨"a ==  ", "a"⟩ ∧
    parse "a ==  " ≠ .ok ((Probe.equals (.text " ")).expr "a") ∧
    makeTest (.ok (.text "a")) (.ok (.equals (.text "x && y"))) = .ok ⟨"a == x && y", "a"⟩ ∧
    parse "a == x && y" = .ok (.connective .both ((Probe.equals (.text "x")).expr "a") (.key "y")) := by
  refine ⟨rfl, ?_, rfl, rfl⟩
  intro read
  have writable := ((makeTest_reads_back_iff (.text "a") (.equals (.text " "))).2 _ rfl).mp read
  have trimmed : Text.Trimmed [' '] := writable.2.2.1
  exact absurd (trimmed.1 ' ' rfl) (by decide)

end Extension.Rule
