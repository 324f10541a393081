import LayoutGuard.Yaml.Glyph

/-!
Block scalars: indented lines after `|`, which keeps them, or after `>`, which
joins lines that begin with a word. The header tells what becomes of the line
breaks at the end and may give the indentation.
-/

namespace LayoutGuard.Yaml.Block

/-- What becomes of the line breaks at the end. -/
inductive Chomping
  | strip
  | clip
  | keep
deriving DecidableEq, Repr

structure Header where
  chomping : Chomping
  /-- Columns beyond the indentation of the parent; none to find out. -/
  indent : Option Nat

private def fault (start : Mark) : String → List Glyph → Failure :=
  faultIn "while scanning a block scalar" start

def chomping? : Char → Option Chomping
  | '+' => some .keep
  | '-' => some .strip
  | _ => none

def readIndent (start : Mark) (gs : List Glyph) : Except Failure (Option Nat × List Glyph) :=
  let c := charAt 0 gs
  if c = '0' then .error (fault start "found an indentation indicator equal to 0" gs)
  else if Text.isDigit c then .ok (some (c.toNat - '0'.toNat), gs.drop 1)
  else .ok (none, gs)

def readHeader (start : Mark) (gs : List Glyph) : Except Failure (Header × List Glyph) := do
  match chomping? (charAt 0 gs) with
  | some c =>
    let (indent, gs) ← readIndent start (gs.drop 1)
    return (⟨c, indent⟩, gs)
  | none =>
    let (indent, gs) ← readIndent start gs
    match indent, chomping? (charAt 0 gs) with
    | some _, some c => return (⟨c, indent⟩, gs.drop 1)
    | _, _ => return (⟨.clip, indent⟩, gs)

/-- Drops the spaces left of the column `indent`, or all with no column given. -/
def skipIndent (indent : Nat) (gs : List Glyph) : List Glyph :=
  gs.dropWhile fun g => g.char = ' ' && (indent = 0 || g.mark.column < indent)

theorem length_skipIndent (indent : Nat) (gs : List Glyph) :
    (skipIndent indent gs).length ≤ gs.length :=
  (List.dropWhile_sublist _).length_le

/-- Reads blank lines: their breaks and the widest indentation seen. -/
def blankLines (start : Mark) (indent widest : Nat) (gs : List Glyph) :
    Except Failure (List Char × Nat × List Glyph) :=
  match _h : skipIndent indent gs with
  | [] => .ok ([], widest, [])
  | g :: rest =>
    let widest := max widest g.mark.column
    if g.char = '\t' && (indent = 0 || g.mark.column < indent) then
      .error (fault start "found a tab character where an indentation space is expected" (g :: rest))
    else if isBreak g.char then do
      let (breaks, widest, rest) ← blankLines start indent widest rest
      return (g.char :: breaks, widest, rest)
    else .ok ([], widest, g :: rest)
termination_by gs.length
decreasing_by
  have := length_skipIndent indent gs
  simp only [_h, List.length_cons] at this
  omega

/-- The break between two text lines of which the first is followed by blank
lines, given by `further`. -/
def joint (folded leadingSpace trailingSpace : Bool) (first further : List Char) : List Char :=
  if folded && first = ['\n'] && !leadingSpace && !trailingSpace then
    if further.isEmpty then [' '] else further
  else first ++ further

/-- The scalar's text with its last line break and the blank lines behind it. -/
structure Body where
  text : List Char
  last : List Char
  blank : List Char
  rest : List Glyph

def textLines (folded : Bool) (start : Mark) (indent : Nat) (leadingSpace : Bool) (b : Body) :
    Except Failure Body :=
  let c := charAt 0 b.rest
  if column b.rest = indent && c ≠ endOfText then
    let line := spanChars (fun c => !isBreakOrEnd c) b.rest
    let last := (chars (line.2.take 1)).filter isBreak
    match blankLines start indent 0 (line.2.drop last.length) with
    | .error f => .error f
    | .ok (blank, _, rest) =>
      let text := b.text ++ joint folded leadingSpace (isSpace c) b.last b.blank ++ line.1
      if rest.length < b.rest.length then
        textLines folded start indent (isSpace c) ⟨text, last, blank, rest⟩
      else .ok ⟨text, last, blank, rest⟩
  else .ok b
termination_by b.rest.length

def Body.chomped (b : Body) : Chomping → List Char
  | .strip => b.text
  | .clip => b.text ++ b.last
  | .keep => b.text ++ b.last ++ b.blank

/-- Reads the block scalar in front; `depth` is one more than the column of the
block around it, or zero. -/
def read (depth : Nat) (gs : List Glyph) : Except Failure (List Char × List Glyph) := do
  let start := place gs
  let (header, rest) ← readHeader start (gs.drop 1)
  let rest := skipComment (skipSpaces rest)
  if isBreakOrEnd (charAt 0 rest) then
    let rest := if isBreak (charAt 0 rest) then rest.drop 1 else rest
    let given := header.indent.elim 0 (depth - 1 + ·)
    let (blank, widest, rest) ← blankLines start given 0 rest
    let indent := if given = 0 then max widest (max depth 1) else given
    let b ← textLines (charAt 0 gs = '>') start indent false ⟨[], [], blank, rest⟩
    return (b.chomped header.chomping, b.rest)
  else .error (fault start "did not find expected comment or line break" rest)

end LayoutGuard.Yaml.Block
