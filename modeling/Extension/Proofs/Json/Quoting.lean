import Extension.Json.Reader
import Extension.Json.Text
import Mathlib.Tactic.SplitIfs

namespace Extension

/-! Texts between quotation marks, read back.

Whatever characters a text has, the reader finds them again in what is written for them: each character is written as itself,
with a letter behind a backslash, or by its one or two UTF-16 units.
-/

namespace Text

theorem hex_one {code : Nat} (small : code < 16) : hex 1 code = [Nat.digitChar code] := by
  rw [hex, Nat.toDigits_of_lt_base small]
  rfl

theorem hex_succ (width code : Nat) :
    hex (width + 2) code = hex (width + 1) (code / 16) ++ [Nat.digitChar (code % 16)] := by
  rw [hex, hex]
  by_cases small : code < 16
  · rw [Nat.toDigits_of_lt_base small, Nat.div_eq_of_lt small, Nat.mod_eq_of_lt small]
    simp [List.replicate_succ']
  · rw [Nat.toDigits_of_base_le (by decide) (by omega)]
    simp

theorem hex_four {code : Nat} (small : code < 0x10000) :
    hex 4 code = [Nat.digitChar (code / 16 / 16 / 16), Nat.digitChar (code / 16 / 16 % 16),
      Nat.digitChar (code / 16 % 16), Nat.digitChar (code % 16)] := by
  rw [hex_succ, hex_succ, hex_succ, hex_one (by omega)]
  rfl

end Text

namespace Json.Reader

open Text

theorem hexValue?_digitChar : ∀ digit < 16, hexValue? (Nat.digitChar digit) = some digit := by
  decide

theorem unit?_hex {code : Nat} (small : code < 0x10000) : unit? (hex 4 code) = some code := by
  rw [hex_four small, unit?, hexValue?_digitChar _ (by omega), hexValue?_digitChar _ (by omega),
    hexValue?_digitChar _ (by omega), hexValue?_digitChar _ (by omega)]
  change some _ = some code
  congr 1
  omega

theorem length_hex {code : Nat} (small : code < 0x10000) : (hex 4 code).length = 4 := by
  rw [hex_four small]
  rfl

section

variable (start fuel : Nat) (read : List CodePoint) {code : Nat} {rest : List Char}

/-- A unit that is no first half of a pair is read as its code point. -/
theorem string_unit (small : code < 0x10000) (whole : ¬ (0xd800 ≤ code ∧ code ≤ 0xdbff)) (more : rest ≠ []) :
    string start (fuel + 1) read (unit code ++ rest) = string start fuel (.ofNat code :: read) rest := by
  have some := List.length_pos_iff.mpr more
  have four := length_hex small
  have enough : ¬ (hex 4 code ++ rest).length ≤ 4 := by
    rw [List.length_append, four]
    omega
  rw [unit, List.cons_append, List.cons_append, string, if_neg enough]
  simp only [List.take_left' four, List.drop_left' four, unit?_hex small, string.pair?, if_neg whole]

/-- Two units that are the halves of a pair are read as one code point. -/
theorem string_pair {high low : Nat} (first : 0xd800 ≤ high ∧ high ≤ 0xdbff) (second : 0xdc00 ≤ low ∧ low ≤ 0xdfff)
    (more : rest ≠ []) :
    string start (fuel + 1) read (unit high ++ unit low ++ rest) = string start fuel (ofPair high low :: read) rest := by
  have some := List.length_pos_iff.mpr more
  have four : (hex 4 high).length = 4 := length_hex (by omega)
  have behind : (hex 4 low).length = 4 := length_hex (by omega)
  have enough : ¬ (hex 4 low ++ rest).length ≤ 4 := by
    rw [List.length_append, behind]
    omega
  have before : ¬ (hex 4 high ++ '\\' :: 'u' :: (hex 4 low ++ rest)).length ≤ 4 := by
    rw [List.length_append, four, List.length_cons]
    omega
  have pair : string.pair? high ('\\' :: 'u' :: (hex 4 low ++ rest)) = .some (.some low) := by
    rw [string.pair?, if_pos first]
    simp only [if_neg enough, List.take_left' behind, unit?_hex (show low < 0x10000 by omega), if_pos second]
  have split : unit high ++ unit low ++ rest =
      '\\' :: 'u' :: (hex 4 high ++ '\\' :: 'u' :: (hex 4 low ++ rest)) := by
    simp [unit]
  rw [split, string, if_neg before]
  simp only [List.take_left' four, List.drop_left' four, unit?_hex (show high < 0x10000 by omega), pair]
  rw [show List.drop 6 ('\\' :: 'u' :: (hex 4 low ++ rest)) = rest by simp [List.drop_left' behind]]

theorem ofNat_toNat (c : Char) : CodePoint.ofNat c.toNat = .ofChar c := by
  have bound : c.toNat < 0xd800 ∨ 0xdfff < c.toNat ∧ c.toNat < 0x110000 := c.valid
  exact Fin.ext (Nat.mod_eq_of_lt (by omega))

theorem string_units (c : Char) (more : rest ≠ []) :
    string start (fuel + 1) read (units c.toNat ++ rest) = string start fuel (.ofChar c :: read) rest := by
  have bound : c.toNat < 0xd800 ∨ 0xdfff < c.toNat ∧ c.toNat < 0x110000 := c.valid
  rw [units]
  by_cases small : c.toNat < 0x10000
  · -- a character is no half of a pair
    rw [if_pos small, string_unit _ _ _ small (by omega) more, ofNat_toNat]
  · have offset : 0x10000 + (0xd800 + (c.toNat - 0x10000) / 0x400 - 0xd800) * 0x400 +
        (0xdc00 + (c.toNat - 0x10000) % 0x400 - 0xdc00) = c.toNat := by
      omega
    rw [if_neg small, string_pair _ _ _ (by omega) (by omega) more, ofPair, offset, ofNat_toNat]

theorem string_escapeChar (c : Char) (more : rest ≠ []) :
    string start (fuel + 1) read (escapeChar c ++ rest) = string start fuel (.ofChar c :: read) rest := by
  unfold escapeChar
  split_ifs with quote backslash feed carriage tab page back plain
  · rw [quote]; rfl
  · rw [backslash]; rfl
  · rw [feed]; rfl
  · rw [carriage]; rfl
  · rw [tab]; rfl
  · rw [page]; rfl
  · rw [back]; rfl
  · have printable : ¬ c.toNat ≤ 0x1f := by
      have blank : 0x20 ≤ c.toNat := plain.1
      omega
    rw [List.singleton_append, string, if_neg printable]
    · exact quote
    · exact fun _ same _ => backslash same
    · exact fun same _ => backslash same
    · exact fun _ _ same _ => backslash same
  · exact string_units start fuel read c more

theorem escapeChar_ne_nil (c : Char) : escapeChar c ≠ [] := by
  grind [escapeChar, units, unit]

/-- The characters of a text are read one by one. -/
theorem string_escaped (chars : List Char) {fuel : Nat} (enough : chars.length < fuel) (rest : List Char) :
    string start fuel read (chars.flatMap escapeChar ++ '"' :: rest) =
      .ok (⟨read.reverse ++ chars.map .ofChar⟩, rest) := by
  induction chars generalizing fuel read with
  | nil =>
      obtain ⟨fuel, rfl⟩ : ∃ less, fuel = less + 1 := ⟨fuel - 1, by simp at enough; omega⟩
      simp [string]
  | cons c chars ih =>
      obtain ⟨fuel, rfl⟩ : ∃ less, fuel = less + 1 := ⟨fuel - 1, by simp at enough; omega⟩
      rw [List.flatMap_cons, List.append_assoc, string_escapeChar _ _ _ _ (by simp), ih _ (by simpa using enough)]
      simp

end

end Json.Reader

namespace Json

open Reader

theorem toList_quoteText (chars : List Char) :
    (quoteText (.ofChars chars)).toList = '"' :: (chars.flatMap escapeChar ++ ['"']) := by
  have escaped : (chars.map CodePoint.ofChar).flatMap escapePoint = chars.flatMap escapeChar := by
    simp [List.flatMap_map, escapePoint, CodePoint.char?_ofChar]
  rw [quoteText, String.toList_ofList, WideText.ofChars, escaped]
  rfl

/-- A quoted text is read back, whatever follows it. -/
theorem string_quoteText (chars : List Char) : ∃ inner, (quoteText (.ofChars chars)).toList = '"' :: inner ∧
    ∀ rest : List Char, string ('"' :: (inner ++ rest)).length ('"' :: (inner ++ rest)).length [] (inner ++ rest) =
      .ok (.ofChars chars, rest) := by
  refine ⟨_, toList_quoteText chars, fun rest => ?_⟩
  have length : chars.length ≤ (chars.flatMap escapeChar).length := by
    induction chars with
    | nil => exact Nat.zero_le _
    | cons c chars ih =>
        have some := List.length_pos_iff.mpr (escapeChar_ne_nil c)
        rw [List.length_cons, List.flatMap_cons, List.length_append]
        omega
  rw [List.append_assoc, List.singleton_append, string_escaped]
  · rfl
  · rw [List.length_cons, List.length_append]
    omega

end Json

end Extension
