import LayoutGuard.Text.Ascii
import LayoutGuard.Text.Blank
import LayoutGuard.Text.WordRanges

/-!
The Unicode word characters and decimal digits, and the places in running text
where a word begins or ends.
-/

namespace LayoutGuard.Text

/-- A character that is part of a word by the Unicode rules. -/
def isWordChar (c : Char) : Bool :=
  if c.toNat < 128 then isNameRest c else inRanges wordRanges c.toNat

def isDecimalDigit (c : Char) : Bool :=
  if c.toNat < 128 then isDigit c else inRanges digitRanges c.toNat

/-- Whether a word begins or ends between the character `before` and the text
`after` it. -/
def atWordEdge (before : Option Char) (after : List Char) : Bool :=
  before.any isWordChar != after.head?.any isWordChar

end LayoutGuard.Text
