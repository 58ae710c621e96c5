import Extension.Clause.Parser
import Mathlib.Data.List.TakeDrop
import Mathlib.Data.List.TakeWhile

namespace Extension.Text

theorem stripLeft_kept {c : Char} (kept : isBlank c = false) (text : List Char) :
    stripLeft (c :: text) = c :: text := by
  rw [stripLeft, List.dropWhile_cons, kept]
  rfl

theorem stripLeft_blank {c : Char} (blank : isBlank c = true) (text : List Char) :
    stripLeft (c :: text) = stripLeft text := by
  rw [stripLeft, List.dropWhile_cons, blank]
  rfl

theorem stripRight_blank {c : Char} (blank : isBlank c = true) (text : List Char) :
    stripRight (text ++ [c]) = stripRight text := by
  rw [stripRight, List.reverse_append, List.reverse_singleton, List.singleton_append,
    List.dropWhile_cons, blank]
  rfl

theorem strip_blank {c : Char} (blank : isBlank c = true) (text : List Char) :
    strip (c :: text) = strip text := by
  rw [strip, stripLeft_blank blank, strip]

theorem Trimmed.stripLeft {text : List Char} (trimmed : Trimmed text) : stripLeft text = text := by
  cases text with
  | nil => rfl
  | cons c text => exact stripLeft_kept (trimmed.1 c rfl) text

theorem Trimmed.stripRight {text : List Char} (trimmed : Trimmed text) : stripRight text = text := by
  rw [Text.stripRight]
  cases back : text.reverse with
  | nil => exact (List.reverse_eq_nil_iff.mp back).symm
  | cons c rest =>
      have kept : isBlank c = false := trimmed.2 c (by rw [List.getLast?_eq_head?_reverse, back]; rfl)
      rw [List.dropWhile_cons, kept, if_neg Bool.false_ne_true, ← back, List.reverse_reverse]

theorem Trimmed.strip {text : List Char} (trimmed : Trimmed text) : strip text = text := by
  rw [Text.strip, trimmed.stripLeft, trimmed.stripRight]

theorem Trimmed.strip_blank {text : List Char} (trimmed : Trimmed text) (some : text ≠ []) {c : Char}
    (blank : isBlank c = true) : Text.strip (text ++ [c]) = text := by
  cases text with
  | nil => contradiction
  | cons first text =>
      rw [Text.strip, List.cons_append, stripLeft_kept (trimmed.1 first rfl), ← List.cons_append,
        stripRight_blank blank, trimmed.stripRight]

end Extension.Text

namespace Extension.Clause

open Text

/-! Reading back what the tests of a clause say.

A text that can be written is never cut, and keeps its ends; so the lexemes of a joined clause are its parts
with the signs between them.
-/

/-- Does the text not go on with a character of a sign? -/
def IsGap (rest : List Char) : Prop :=
  rest.head? ≠ some '&' ∧ rest.head? ≠ some '|'

def Uncut (text : List Char) : Prop :=
  ∀ rest, IsGap rest → pieces (text ++ rest) = (text ++ (pieces rest).1, (pieces rest).2)

theorem pieces_cons {c : Char} {rest : List Char} (both : ¬ (c = '&' ∧ rest.head? = some '&'))
    (either : ¬ (c = '|' ∧ rest.head? = some '|')) :
    pieces (c :: rest) = (c :: (pieces rest).1, (pieces rest).2) := by
  rw [pieces]
  · rintro more rfl rfl
    exact both ⟨rfl, rfl⟩
  · rintro more rfl rfl
    exact either ⟨rfl, rfl⟩

theorem pieces_kept {c : Char} (both : c ≠ '&') (either : c ≠ '|') (rest : List Char) :
    pieces (c :: rest) = (c :: (pieces rest).1, (pieces rest).2) :=
  pieces_cons (fun sign => both sign.1) (fun sign => either sign.1)

namespace Uncut

theorem nil : Uncut [] :=
  fun _ _ => rfl

theorem cons {c : Char} {text : List Char} (both : c ≠ '&') (either : c ≠ '|') (uncut : Uncut text) :
    Uncut (c :: text) := by
  intro rest gap
  rw [List.cons_append, pieces_kept both either, uncut rest gap, List.cons_append]

theorem append {first second : List Char} (firstUncut : Uncut first) (gap : IsGap second)
    (some : second ≠ []) (secondUncut : Uncut second) : Uncut (first ++ second) := by
  intro rest restGap
  have between : IsGap (second ++ rest) := by
    cases second with
    | nil => contradiction
    | cons c second => exact gap
  rw [List.append_assoc, firstUncut _ between, secondUncut rest restGap, List.append_assoc]

theorem of_not_holds {text : List Char} (both : ¬ Holds ['&', '&'] text) (either : ¬ Holds ['|', '|'] text) :
    Uncut text := by
  induction text with
  | nil => exact nil
  | cons c text ih =>
      intro rest gap
      have shorter {signs : List Char} (free : ¬ Holds signs (c :: text)) : ¬ Holds signs text := by
        rintro ⟨before, after, rfl⟩
        exact free ⟨c :: before, after, rfl⟩
      have apart {sign : Char} (free : ¬ Holds [sign, sign] (c :: text)) (stop : rest.head? ≠ some sign) :
          ¬ (c = sign ∧ (text ++ rest).head? = some sign) := by
        rintro ⟨rfl, next⟩
        cases text with
        | nil => exact stop next
        | cons d text =>
            cases next
            exact free ⟨[], text, rfl⟩
      rw [List.cons_append, pieces_cons (apart both gap.1) (apart either gap.2),
        ih (shorter both) (shorter either) rest gap, List.cons_append]

theorem of_all {text : List Char} (kept : ∀ c ∈ text, c ≠ '&' ∧ c ≠ '|') : Uncut text := by
  induction text with
  | nil => exact nil
  | cons c text ih =>
      obtain ⟨both, either⟩ := kept c (List.mem_cons_self ..)
      exact cons both either (ih fun d member => kept d (List.mem_cons_of_mem c member))

end Uncut

/-- A text that keeps its ends and is not cut is one operand. -/
structure IsWhole (text : List Char) : Prop where
  some : text ≠ []
  trimmed : Trimmed text
  uncut : Uncut text

theorem IsWhole.lexemes {text : List Char} (whole : IsWhole text) : lexemes text = [.operand text] := by
  have one := whole.uncut [] ⟨by decide, by decide⟩
  rw [List.append_nil] at one
  simp [Clause.lexemes, one, pieces, whole.trimmed.strip]

/-- What is read before a sign with its blanks is an operand. -/
theorem IsWhole.lexemes_joint {text : List Char} (whole : IsWhole text) (how : Connective) (rest : List Char) :
    Clause.lexemes (text ++ ' ' :: how.sign.toList ++ ' ' :: rest) =
      .operand text :: .joint how :: Clause.lexemes rest := by
  have cut : pieces (' ' :: how.sign.toList ++ ' ' :: rest) =
      ([' '], (how, ' ' :: (pieces rest).1) :: (pieces rest).2) := by
    have spaced := pieces_kept (by decide : ' ' ≠ '&') (by decide : ' ' ≠ '|') rest
    cases how <;>
    · rw [List.cons_append, pieces_kept (by decide) (by decide)]
      simp [Connective.sign, pieces, spaced]
  have whole' := whole.uncut (' ' :: how.sign.toList ++ ' ' :: rest) ⟨by simp, by simp⟩
  rw [cut] at whole'
  rw [List.append_assoc, Clause.lexemes, whole', Clause.lexemes]
  simp only [List.flatMap_cons, whole.trimmed.strip_blank whole.some (by decide : isBlank ' ' = true),
    strip_blank (by decide : isBlank ' ' = true)]
  rfl

theorem blank_of_strip {text : List Char} (nothing : strip text = []) : ∀ c ∈ text, isBlank c = true := by
  induction text with
  | nil => simp
  | cons c text ih =>
      cases blank : isBlank c with
      | true =>
          rw [strip_blank blank] at nothing
          simpa [blank] using ih nothing
      | false =>
          rw [strip, stripLeft_kept blank, stripRight, List.reverse_eq_nil_iff, List.dropWhile_eq_nil_iff] at nothing
          exact fun d member => nothing d (List.mem_reverse.mpr member)

theorem strip_ne_nil {text operand : List Char} {more : List Lexeme} (some : operand ≠ [])
    (read : lexemes text = .operand operand :: more) : strip text ≠ [] := by
  intro nothing
  have uncut : Uncut text := .of_all fun c member => by
    have blank := blank_of_strip nothing c member
    constructor <;>
    · rintro rfl
      contradiction
  have one := uncut [] ⟨by decide, by decide⟩
  rw [List.append_nil] at one
  rw [lexemes, one] at read
  simp only [pieces, List.append_nil, nothing, List.cons.injEq, Lexeme.operand.injEq] at read
  exact some read.1.symm

/-! Single tests -/

theorem isKeyChar_iff {c : Char} : isKeyChar c = true ↔
    isBlank c = false ∧ c ≠ '=' ∧ c ≠ '~' ∧ c ≠ '!' ∧ c ≠ '&' ∧ c ≠ '|' := by
  simp [isKeyChar, and_assoc]

theorem IsKey.uncut {text : List Char} (key : IsKey text) : Uncut text := by
  refine .of_all fun c member => ?_
  obtain ⟨_, _, _, _, both, either⟩ := isKeyChar_iff.mp (key.2 c member)
  exact ⟨both, either⟩

theorem IsKey.trimmed {text : List Char} (key : IsKey text) : Trimmed text := by
  constructor
  · intro c first
    exact (isKeyChar_iff.mp (key.2 c (List.mem_of_head? first))).1
  · intro c last
    exact (isKeyChar_iff.mp (key.2 c (List.mem_of_getLast? last))).1

theorem IsTest.isWhole {text : List Char} (test : IsTest text) : IsWhole text := by
  cases test with
  | key key free => exact ⟨key.1, key.trimmed, key.uncut⟩
  | @comparison name operand how key kept =>
      obtain ⟨some, trimmed, both, either⟩ := kept
      have spaced : IsGap (' ' :: operand) := ⟨by simp, by simp⟩
      have sign : Uncut (' ' :: how.sign.toList) := .of_all (by cases how <;> simp [Comparison.sign])
      have signGap : IsGap (' ' :: how.sign.toList) := ⟨by simp, by simp⟩
      have behind : Uncut (' ' :: operand) := .cons (by decide) (by decide) (.of_not_holds both either)
      refine ⟨by simp, ?_, ?_⟩
      · constructor
        · intro c first
          cases name with
          | nil => exact absurd rfl key.1
          | cons d name => exact key.trimmed.1 c first
        · intro c last
          refine trimmed.2 c ?_
          cases operand with
          | nil => contradiction
          | cons d operand =>
              simp only [List.getLast?_append, List.getLast?_cons, Option.some_or, Option.getD_some] at last ⊢
              exact last
      · exact (key.uncut.append signGap (by simp) sign).append spaced (by simp) behind

/-- The key characters at the start of a text are the key. -/
theorem splitComparison?_eq {name rest : List Char} (key : IsKey name)
    (stops : ∀ c, rest.head? = some c → isKeyChar c = false) :
    splitComparison? (name ++ rest) =
      (splitSign? (stripLeft rest)).map fun (how, value) => (name, how, value) := by
  have behind : rest.takeWhile isKeyChar = [] ∧ rest.dropWhile isKeyChar = rest := by
    cases rest with
    | nil => exact ⟨rfl, rfl⟩
    | cons c rest => simp [stops c rfl]
  have span : (name ++ rest).span isKeyChar = (name, rest) := by
    rw [List.span_eq_takeWhile_dropWhile, List.takeWhile_append_of_pos key.2,
      List.dropWhile_append_of_pos key.2, behind.1, behind.2, List.append_nil]
  simp only [splitComparison?, span, if_neg key.1]

theorem isTest_letter {c : Char} (key : isKeyChar c = true) : IsTest [c] := by
  refine .key ⟨List.cons_ne_nil _ _, by simpa using key⟩ ?_
  rintro (same | same) <;> cases same

theorem IsTest.free {text : List Char} (test : IsTest text) : ¬ IsReserved text := by
  cases test with
  | key key free => exact free
  | @comparison name operand how key kept =>
      have blank : ' ' ∈ name ++ ' ' :: how.sign.toList ++ ' ' :: operand := by simp
      rintro (same | same)
      · rw [same] at blank
        exact absurd blank (by decide)
      · rw [same] at blank
        exact absurd blank (by decide)

theorem IsTest.starts {text : List Char} (test : IsTest text) :
    ∃ c rest, text = c :: rest ∧ isKeyChar c = true := by
  cases test with
  | key key free =>
      cases text with
      | nil => exact absurd rfl key.1
      | cons c rest => exact ⟨c, rest, rfl, key.2 c (List.mem_cons_self ..)⟩
  | @comparison name operand how key kept =>
      cases name with
      | nil => exact absurd rfl key.1
      | cons c rest => exact ⟨c, _, rfl, key.2 c (List.mem_cons_self ..)⟩

theorem IsTest.negations {text : List Char} (test : IsTest text) : negations text = (0, text) := by
  obtain ⟨c, rest, rfl, key⟩ := test.starts
  obtain ⟨notBlank, _, _, notSign, _⟩ := isKeyChar_iff.mp key
  rw [Clause.negations, if_neg notSign, notBlank, if_neg Bool.false_ne_true]

theorem IsTest.isWhole_negated {text : List Char} (test : IsTest text) : IsWhole ('!' :: text) := by
  obtain ⟨some, trimmed, uncut⟩ := test.isWhole
  refine ⟨List.cons_ne_nil _ _, ⟨?_, ?_⟩, uncut.cons (by decide) (by decide)⟩
  · intro c first
    cases first
    decide
  · intro c last
    refine trimmed.2 c ?_
    cases text with
    | nil => contradiction
    | cons d rest => rwa [List.getLast?_cons_cons] at last

end Extension.Clause
