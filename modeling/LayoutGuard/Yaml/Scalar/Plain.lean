import LayoutGuard.Yaml.Scalar.Gap

/-!
Plain scalars: words without quotes. They end at a colon before white space, at
a comment, at less indentation, and inside brackets at punctuation.
-/

namespace LayoutGuard.Yaml.Plain

def isFlowPunctuation (c : Char) : Bool :=
  c = ',' || c = '[' || c = ']' || c = '\x7b' || c = '\x7d'

/-- A colon inside brackets that is followed by punctuation. -/
def isStrayColon (flow : Bool) (gs : List Glyph) : Bool :=
  flow && charAt 0 gs = ':' && (isFlowPunctuation (charAt 1 gs) || charAt 1 gs = '?')

def endsHere (flow : Bool) (gs : List Glyph) : Bool :=
  endsWord (charAt 0 gs) || (charAt 0 gs = ':' && endsWord (charAt 1 gs)) ||
    (flow && isFlowPunctuation (charAt 0 gs)) || isStrayColon flow gs

def word (flow : Bool) : List Glyph → List Char × List Glyph
  | [] => ([], [])
  | g :: gs =>
    if endsHere flow (g :: gs) then ([], g :: gs)
    else
      let (w, rest) := word flow gs
      (g.char :: w, rest)

/-- A plain scalar, and whether a line break was passed behind its last word. -/
structure Reading where
  text : List Char
  broken : Bool
  rest : List Glyph

private def fault (start : Mark) : String → List Glyph → Failure :=
  faultIn "while scanning a plain scalar" start

/-- Reads on after `text` and a gap. -/
def readFrom (flow : Bool) (indent : Nat) (start : Mark) (text : List Char) (gap : Gap)
    (gs : List Glyph) : Except Failure Reading :=
  if isDocumentMarker gs || charAt 0 gs = '#' then .ok ⟨text, gap.broken, gs⟩
  else
    let w := word flow gs
    if isStrayColon flow w.2 then .error (fault start "found unexpected ':'" w.2)
    else if w.1.isEmpty then .ok ⟨text, gap.broken, gs⟩
    else
      let text := text ++ gap.text ++ w.1
      let next := Gap.read indent .none w.2
      if charAt 0 next.2 = '\t' then
        .error (fault start "found a tab character that violates indentation" next.2)
      else if next.2.length = w.2.length || (!flow && column next.2 < indent) then
        .ok ⟨text, next.1.broken, next.2⟩
      else if next.2.length < gs.length then readFrom flow indent start text next.1 next.2
      else .ok ⟨text, next.1.broken, next.2⟩
termination_by gs.length

/-- Reads the plain scalar in front. Outside brackets, lines that continue it
are indented by `indent` at least. -/
def read (flow : Bool) (indent : Nat) (gs : List Glyph) : Except Failure Reading :=
  readFrom flow indent (place gs) [] .none gs

end LayoutGuard.Yaml.Plain
