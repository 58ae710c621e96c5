import Extension.Text.Quoted

namespace Extension

/-! Texts over all code points.

The texts of data formats may hold halves of surrogate pairs, which no `String` can hold.  A `WideText` holds
them, and every `String` is one: `WideText.toString?` finds it again.
-/

/-- A code point, half of a surrogate pair or not. -/
abbrev CodePoint := Fin 0x110000

namespace CodePoint

def ofChar (c : Char) : CodePoint :=
  ⟨c.toNat, by
    have valid := c.valid
    have bound : c.toNat < 0xd800 ∨ 0xdfff < c.toNat ∧ c.toNat < 0x110000 := valid
    omega⟩

/-- The code point of a number, which has to be a code point. -/
def ofNat (code : Nat) : CodePoint :=
  Fin.ofNat 0x110000 code

def isHalf (point : CodePoint) : Bool :=
  0xd800 ≤ point.val && point.val ≤ 0xdfff

/-- The character at a code point, which a half of a pair does not have. -/
def char? (point : CodePoint) : Option Char :=
  if isHalf point then none else some (Char.ofNat point)

/-- The character at a code point; the replacement character stands for a half of a pair. -/
def shown (point : CodePoint) : Char :=
  (char? point).getD '\ufffd'

theorem isHalf_ofChar (c : Char) : isHalf (ofChar c) = false := by
  have bound : c.toNat < 0xd800 ∨ 0xdfff < c.toNat ∧ c.toNat < 0x110000 := c.valid
  by_cases low : 0xd800 ≤ c.toNat
  · have high : ¬ c.toNat ≤ 0xdfff := by omega
    simp [isHalf, ofChar, high]
  · simp [isHalf, ofChar, low]

theorem char?_ofChar (c : Char) : char? (ofChar c) = some c := by
  rw [char?, isHalf_ofChar]
  simp [ofChar]

end CodePoint

structure WideText where
  points : List CodePoint
deriving DecidableEq, Repr

namespace WideText

def ofChars (chars : List Char) : WideText :=
  ⟨chars.map CodePoint.ofChar⟩

def ofString (text : String) : WideText :=
  ofChars text.toList

instance : Coe String WideText := ⟨ofString⟩

instance : Inhabited WideText := ⟨⟨[]⟩⟩

def isEmpty (text : WideText) : Bool :=
  text.points.isEmpty

/-- The characters of the text; replacement characters stand for halves of pairs. -/
def chars (text : WideText) : List Char :=
  text.points.map CodePoint.shown

/-- The text as a `String`, if it holds no half of a pair. -/
def toString? (text : WideText) : Option String :=
  (text.points.mapM CodePoint.char?).map String.ofList

def drop (text : WideText) (count : Nat) : WideText :=
  ⟨text.points.drop count⟩

def before (left right : WideText) : Bool :=
  decide (left.points < right.points)

def quotePoint (mark : Char) (point : CodePoint) : List Char :=
  match CodePoint.char? point with
  | some c => Text.quoteChar mark c
  | none => Text.escapeCode point

/-- The text between quotation marks.  Halves of pairs are written by their code points. -/
def quoted (text : WideText) : String :=
  let mark := Text.quoteMark text.chars
  String.ofList (mark :: text.points.flatMap (quotePoint mark) ++ [mark])

theorem toString?_ofString (text : String) : (ofString text).toString? = some text := by
  have whole : ∀ chars : List Char, (chars.map CodePoint.ofChar).mapM CodePoint.char? = some chars := by
    intro chars
    induction chars with
    | nil => rfl
    | cons c rest ih => simp [List.mapM_cons, CodePoint.char?_ofChar, ih]
  simp [toString?, ofString, ofChars, whole]

theorem ofString_inj {left right : String} : ofString left = ofString right ↔ left = right := by
  constructor
  · intro equal
    have found := congrArg toString? equal
    simpa [toString?_ofString] using found
  · exact congrArg ofString

section Order

variable {first second third : WideText}

theorem not_before_trans (left : second.before first = false) (right : third.before second = false) :
    third.before first = false := by
  simp only [before, decide_eq_false_iff_not, List.not_lt] at left right ⊢
  exact List.le_trans left right

theorem not_before_total (first second : WideText) : second.before first = false ∨ first.before second = false := by
  simp only [before, decide_eq_false_iff_not, List.not_lt]
  exact List.le_total first.points second.points

theorem before_of_not_before (differ : first ≠ second) (after : second.before first = false) :
    first.before second = true := by
  simp only [before, decide_eq_false_iff_not, decide_eq_true_eq, List.not_lt] at after ⊢
  refine Classical.byContradiction fun late => differ ?_
  have same := List.le_antisymm after (List.not_lt.mp late)
  cases first
  cases second
  exact congrArg mk same

end Order

end WideText

end Extension
