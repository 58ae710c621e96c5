namespace Extension.Text

/-! Blank characters, and texts without them at their ends. -/

/-- The blank characters: the Unicode spaces, the line ends and the four information separators.
The zero-width space and the byte order mark are not blank. -/
def isBlank (c : Char) : Bool :=
  let code := c.toNat
  (0x09 ≤ code && code ≤ 0x0d) || (0x1c ≤ code && code ≤ 0x20) || code == 0x85 || code == 0xa0 ||
    code == 0x1680 || (0x2000 ≤ code && code ≤ 0x200a) || code == 0x2028 || code == 0x2029 ||
    code == 0x202f || code == 0x205f || code == 0x3000

def stripLeft (text : List Char) : List Char :=
  text.dropWhile isBlank

def stripRight (text : List Char) : List Char :=
  (text.reverse.dropWhile isBlank).reverse

def strip (text : List Char) : List Char :=
  stripRight (stripLeft text)

/-- A text that `strip` leaves as it is. -/
def Trimmed (text : List Char) : Prop :=
  (∀ c, text.head? = some c → isBlank c = false) ∧ (∀ c, text.getLast? = some c → isBlank c = false)

end Extension.Text
