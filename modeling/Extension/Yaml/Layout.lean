namespace Extension.Yaml

/-! The page that a document is written on.

A page knows where the next character goes and what stands before it, since line breaks, indentation and
the spaces between indicators depend on that.
-/

structure Page where
  /-- The characters that are written, the last one first. -/
  written : List Char := []
  column : Nat := 0
  /-- Does a space or a line break stand before the next character? -/
  isSpaced : Bool := true
  /-- Does the line so far hold only indentation and the signs that open nested blocks? -/
  isOpening : Bool := true

namespace Page

def text (page : Page) : String :=
  String.ofList page.written.reverse

def put (page : Page) (chars : List Char) : Page :=
  { page with written := chars.reverse ++ page.written, column := page.column + chars.length }

def lineBreak (page : Page) : Page :=
  { written := '\n' :: page.written, column := 0, isSpaced := true, isOpening := true }

/-- Goes to the indentation, on a new line unless this one is still free up to there. -/
def indent (page : Page) (width : Nat) : Page :=
  let page :=
    if !page.isOpening || width < page.column || (page.column == width && !page.isSpaced) then page.lineBreak
    else page
  if page.column < width then
    { page.put (List.replicate (width - page.column) ' ') with isSpaced := true }
  else page

/-- Writes a sign, with a space before it if it needs one. -/
def sign (page : Page) (chars : List Char) (needsSpace : Bool) (opensBlock : Bool := false) : Page :=
  let chars := if page.isSpaced || !needsSpace then chars else ' ' :: chars
  { page.put chars with isSpaced := false, isOpening := page.isOpening && opensBlock }

end Page

end Extension.Yaml
