import LayoutGuard.Yaml.Glyph

/-!
The white space between two words of a scalar that may run over several lines.
Spaces within a line stay. A single line break reads as one space, and of
several breaks the first is dropped.
-/

namespace LayoutGuard.Yaml

/-- White space read so far. After the first line break only further breaks
count. -/
structure Gap where
  spaces : List Char
  /-- The first line break, unless it was escaped. -/
  first : List Char
  further : List Char
  broken : Bool
deriving DecidableEq, Repr

namespace Gap

def none : Gap :=
  ⟨[], [], [], false⟩

/-- A gap that begins with an escaped line break, which reads as nothing. -/
def escaped : Gap :=
  ⟨[], [], [], true⟩

def add (g : Gap) (c : Char) : Gap :=
  if isBreak c then
    if g.broken then { g with further := g.further ++ [c] } else ⟨[], [c], [], true⟩
  else if g.broken then g
  else { g with spaces := g.spaces ++ [c] }

def text (g : Gap) : List Char :=
  if !g.broken then g.spaces
  else if g.first = ['\n'] then (if g.further.isEmpty then [' '] else g.further)
  else g.first ++ g.further

/-- Reads white space on from a gap. A tab left of the column `indent` on a new
line is not taken. -/
def read (indent : Nat) : Gap → List Glyph → Gap × List Glyph
  | gap, [] => (gap, [])
  | gap, g :: gs =>
    if isBreak g.char then read indent (gap.add g.char) gs
    else if isSpace g.char && !(gap.broken && g.char = '\t' && g.mark.column < indent) then
      read indent (gap.add g.char) gs
    else (gap, g :: gs)

end Gap

end LayoutGuard.Yaml
