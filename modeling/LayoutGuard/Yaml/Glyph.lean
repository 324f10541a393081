import LayoutGuard.Text.Ascii
import LayoutGuard.Yaml.Failure

/-!
A YAML text as characters that know their places. Line breaks are unified: every
break but the two Unicode separators reads as a line feed. A NUL, which no text
holds, marks the end, so that the end has a place too.
-/

namespace LayoutGuard.Yaml

namespace Mark

def next (m : Mark) : Mark :=
  ⟨m.index + 1, m.line, m.column + 1⟩

def nextLine (n : Nat) (m : Mark) : Mark :=
  ⟨m.index + n, m.line + 1, 0⟩

end Mark

structure Glyph where
  char : Char
  mark : Mark
deriving DecidableEq, Repr

def endOfText : Char :=
  '\x00'

def byteOrderMark : Char :=
  '\uFEFF'

def isBreak (c : Char) : Bool :=
  c = '\n' || c = '\r' || c = '\u0085' || c = '\u2028' || c = '\u2029'

def isSpace (c : Char) : Bool :=
  c = ' ' || c = '\t'

def isBreakOrEnd (c : Char) : Bool :=
  isBreak c || c = endOfText

/-- Whether a word cannot go on with `c`. -/
def endsWord (c : Char) : Bool :=
  isSpace c || isBreakOrEnd c

def isNameChar (c : Char) : Bool :=
  Text.isLetter c || Text.isDigit c || c = '_' || c = '-'

def isAllowed (c : Char) : Bool :=
  c = '\t' || c = '\n' || c = '\r' || (0x20 ≤ c.toNat && c.toNat ≤ 0x7e) || c.toNat = 0x85 ||
    (0xa0 ≤ c.toNat && c.toNat ≤ 0xfffd) || 0x10000 ≤ c.toNat

/-- The offset in bytes of the first character that may not stand in a text. -/
def forbiddenFrom (offset : Nat) : List Char → Option Nat
  | [] => none
  | c :: cs => if isAllowed c then forbiddenFrom (offset + c.utf8Size) cs else some offset

/-- The character that a line break reads as. -/
def plainBreak (c : Char) : Char :=
  if c = '\u2028' || c = '\u2029' then c else '\n'

def glyphsFrom (m : Mark) : List Char → List Glyph
  | [] => [⟨endOfText, m⟩]
  | '\r' :: '\n' :: cs => ⟨'\n', m⟩ :: glyphsFrom (m.nextLine 2) cs
  | c :: cs =>
    if isBreak c then ⟨plainBreak c, m⟩ :: glyphsFrom (m.nextLine 1) cs
    else ⟨c, m⟩ :: glyphsFrom m.next cs

def glyphs (cs : List Char) : List Glyph :=
  glyphsFrom .start cs

/-- The character at a distance from the front; the end repeats for ever. -/
def charAt (n : Nat) (gs : List Glyph) : Char :=
  (gs[n]?).elim endOfText Glyph.char

def place (gs : List Glyph) : Mark :=
  gs.head?.elim .start Glyph.mark

def column (gs : List Glyph) : Nat :=
  (place gs).column

def chars (gs : List Glyph) : List Char :=
  gs.map Glyph.char

def spanChars (p : Char → Bool) (gs : List Glyph) : List Char × List Glyph :=
  (chars (gs.takeWhile fun g => p g.char), gs.dropWhile fun g => p g.char)

def skipSpaces (gs : List Glyph) : List Glyph :=
  gs.dropWhile fun g => isSpace g.char

def skipComment (gs : List Glyph) : List Glyph :=
  if charAt 0 gs = '#' then gs.dropWhile fun g => !isBreakOrEnd g.char else gs

/-- Whether three equal characters stand as a word of their own at the beginning
of a line. -/
def startsMarker (c : Char) (gs : List Glyph) : Bool :=
  column gs = 0 && (gs.take 3).map Glyph.char = [c, c, c] && endsWord (charAt 3 gs)

/-- The lines `---` and `...` separate documents. -/
def isDocumentMarker (gs : List Glyph) : Bool :=
  startsMarker '-' gs || startsMarker '.' gs

/-- A fault at `at_` in a construct that began at `start`. -/
def faultIn (context : String) (start : Mark) (problem : String) (gs : List Glyph) : Failure :=
  .malformed problem (place gs) (some (context, start))

end LayoutGuard.Yaml
