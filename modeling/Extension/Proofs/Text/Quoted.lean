import Mathlib.Algebra.Group.Nat.Defs
import Extension.Text.Quoted
import Extension.Proofs.Json.Quoting

namespace Extension.Text

/-! Different texts are quoted differently, whatever follows them.

The form of a character tells where it ends and which character it is, and none begins with the quotation mark.
-/

theorem digitChar_inj : ∀ first < 16, ∀ second < 16, Nat.digitChar first = Nat.digitChar second → first = second := by
  decide

theorem length_hex {width code : Nat} (small : code < 16 ^ (width + 1)) :
    (hex (width + 1) code).length = width + 1 := by
  induction width generalizing code with
  | zero => rw [hex_one (by simpa using small), List.length_singleton]
  | succ width ih =>
      rw [hex_succ, List.length_append, ih (by rw [Nat.pow_succ] at small; omega), List.length_singleton]

theorem hex_inj {width first second : Nat} (firstSmall : first < 16 ^ (width + 1))
    (secondSmall : second < 16 ^ (width + 1)) (same : hex (width + 1) first = hex (width + 1) second) : first = second := by
  induction width generalizing first second with
  | zero =>
      rw [Nat.zero_add, Nat.pow_one] at firstSmall secondSmall
      rw [Nat.zero_add, hex_one firstSmall, hex_one secondSmall] at same
      exact digitChar_inj _ firstSmall _ secondSmall (List.singleton_inj.mp same)
  | succ width ih =>
      rw [hex_succ, hex_succ] at same
      obtain ⟨above, last⟩ := List.append_inj' same rfl
      rw [Nat.pow_succ] at firstSmall secondSmall
      have high := ih (by omega) (by omega) above
      have low := digitChar_inj _ (Nat.mod_lt _ (by decide)) _ (Nat.mod_lt _ (by decide)) (List.singleton_inj.mp last)
      omega

/-- What a letter behind a backslash stands for, if no code point follows it. -/
def meaning (sign : Char) : Char :=
  if sign = 'n' then '\n' else if sign = 'r' then '\r' else if sign = 't' then '\t' else sign

/-- The digits of a code point, by the letter in front of them. -/
def escapeWidth (letter : Char) : Nat :=
  if letter = 'x' then 1 else if letter = 'u' then 3 else 7

/-- The three forms of a character in a quoted text. -/
inductive Spelled (mark c : Char) : List Char → Prop
  | plain (apart : c ≠ mark) (plain : c ≠ '\\') : Spelled mark c [c]
  | behind (sign : Char) (short : sign ≠ 'x' ∧ sign ≠ 'u' ∧ sign ≠ 'U') (means : meaning sign = c) :
      Spelled mark c ['\\', sign]
  | code (letter : Char) (long : letter = 'x' ∨ letter = 'u' ∨ letter = 'U')
      (small : c.toNat < 16 ^ (escapeWidth letter + 1)) :
      Spelled mark c ('\\' :: letter :: hex (escapeWidth letter + 1) c.toNat)

def IsMark (mark : Char) : Prop :=
  mark = '\'' ∨ mark = '"'

theorem quoteMark_isMark (text : List Char) : IsMark (quoteMark text) := by
  rw [quoteMark]
  split
  · exact .inr rfl
  · exact .inl rfl

variable {mark c other : Char}

theorem spelled_escapeCode (mark c : Char) : Spelled mark c (escapeCode c.toNat) := by
  rw [escapeCode]
  split
  · next small => exact .code 'x' (.inl rfl) (Nat.lt_succ_of_le small)
  · split
    · next small => exact .code 'u' (.inr (.inl rfl)) (Nat.lt_succ_of_le small)
    · refine .code 'U' (.inr (.inr rfl)) (Nat.lt_of_lt_of_le (UInt32.toNat_lt _) ?_)
      decide

theorem spelled_quoteChar (isMark : IsMark mark) (c : Char) : Spelled mark c (quoteChar mark c) := by
  rw [quoteChar]
  split
  · next masked =>
      rcases masked with rfl | rfl
      · rcases isMark with rfl | rfl
        · exact .behind _ (by decide) (by decide)
        · exact .behind _ (by decide) (by decide)
      · exact .behind _ (by decide) (by decide)
  · next free =>
      obtain ⟨apart, plain⟩ := not_or.mp free
      split
      · next line => exact .behind 'n' (by decide) line.symm
      · split
        · next line => exact .behind 'r' (by decide) line.symm
        · split
          · next tab => exact .behind 't' (by decide) tab.symm
          · split
            · exact .plain apart plain
            · exact spelled_escapeCode mark c

theorem Spelled.inj {first second rest more : List Char} (spelled : Spelled mark c first)
    (others : Spelled mark other second) (same : first ++ rest = second ++ more) : c = other ∧ rest = more := by
  cases spelled with
  | plain apart plain =>
      cases others with
      | plain _ _ => exact List.cons.inj same
      | behind | code => exact absurd (List.cons.inj same).1 plain
  | behind sign short means =>
      cases others with
      | plain _ plain => exact absurd (List.cons.inj same).1.symm plain
      | behind found _ meant =>
          obtain ⟨rfl, rest⟩ := List.cons.inj (List.cons.inj same).2
          exact ⟨means.symm.trans meant, rest⟩
      | code letter long _ =>
          obtain ⟨rfl, _⟩ := List.cons.inj (List.cons.inj same).2
          simp [short] at long
  | code letter long small =>
      cases others with
      | plain _ plain => exact absurd (List.cons.inj same).1.symm plain
      | behind found short _ =>
          obtain ⟨rfl, _⟩ := List.cons.inj (List.cons.inj same).2
          simp [short] at long
      | code found _ fits =>
          obtain ⟨rfl, digits⟩ := List.cons.inj (List.cons.inj same).2
          obtain ⟨written, rest⟩ := List.append_inj digits (by rw [length_hex small, length_hex fits])
          exact ⟨Char.toNat_inj.mp (hex_inj small fits written), rest⟩

theorem Spelled.ne_mark {spelling rest more : List Char} (isMark : IsMark mark) (spelled : Spelled mark c spelling) :
    mark :: rest ≠ spelling ++ more := by
  intro same
  have slash : mark ≠ '\\' := by
    rcases isMark with rfl | rfl
    · decide
    · decide
  cases spelled with
  | plain apart _ => exact apart (List.cons.inj same).1.symm
  | behind | code => exact slash (List.cons.inj same).1

theorem spelled_chars_inj (isMark : IsMark mark) {first second rest more : List Char}
    (same : first.flatMap (quoteChar mark) ++ mark :: rest = second.flatMap (quoteChar mark) ++ mark :: more) :
    first = second ∧ rest = more := by
  induction first generalizing second with
  | nil =>
      cases second with
      | nil => exact ⟨rfl, (List.cons.inj same).2⟩
      | cons d second =>
          rw [List.flatMap_cons, List.append_assoc] at same
          exact absurd same ((spelled_quoteChar isMark d).ne_mark isMark)
  | cons c first ih =>
      cases second with
      | nil =>
          rw [List.flatMap_cons, List.append_assoc] at same
          exact absurd same.symm ((spelled_quoteChar isMark c).ne_mark isMark)
      | cons d second =>
          rw [List.flatMap_cons, List.flatMap_cons, List.append_assoc, List.append_assoc] at same
          obtain ⟨rfl, further⟩ := (spelled_quoteChar isMark c).inj (spelled_quoteChar isMark d) same
          obtain ⟨rfl, rest⟩ := ih further
          exact ⟨rfl, rest⟩

/-- A quoted text tells which text it is, and where it ends. -/
theorem quoted_append_inj {first second rest more : String} (same : quoted first ++ rest = quoted second ++ more) :
    first = second ∧ rest = more := by
  have chars := congrArg String.toList same
  simp only [String.toList_append, quoted, String.toList_ofList, quoteChars, List.append_assoc, List.cons_append,
    List.cons.injEq, List.nil_append] at chars
  obtain ⟨mark, chars⟩ := chars
  rw [mark] at chars
  obtain ⟨text, rest⟩ := spelled_chars_inj (quoteMark_isMark _) chars
  exact ⟨String.toList_inj.mp text, String.toList_inj.mp rest⟩

end Extension.Text
