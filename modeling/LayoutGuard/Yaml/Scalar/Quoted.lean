import LayoutGuard.Text.Radix
import LayoutGuard.Yaml.Scalar.Gap

/-!
Scalars in quotes. In single quotes a quote is written twice and nothing else is
special; in double quotes a backslash begins an escape.
-/

namespace LayoutGuard.Yaml.Quoted

/-- What a letter after a backslash stands for. -/
inductive Escape
  | char (c : Char)
  /-- A code point of so many hexadecimal digits follows. -/
  | code (digits : Nat)

def escape? : Char → Option Escape
  | '0' => some (.char '\x00')
  | 'a' => some (.char '\x07')
  | 'b' => some (.char '\x08')
  | 't' => some (.char '\t')
  | '\t' => some (.char '\t')
  | 'n' => some (.char '\n')
  | 'v' => some (.char '\x0b')
  | 'f' => some (.char '\x0c')
  | 'r' => some (.char '\r')
  | 'e' => some (.char '\x1b')
  | ' ' => some (.char ' ')
  | '"' => some (.char '"')
  | '/' => some (.char '/')
  | '\\' => some (.char '\\')
  | 'N' => some (.char '\u0085')
  | '_' => some (.char '\u00a0')
  | 'L' => some (.char '\u2028')
  | 'P' => some (.char '\u2029')
  | 'x' => some (.code 2)
  | 'u' => some (.code 4)
  | 'U' => some (.code 8)
  | _ => none

private def fault (start : Mark) : String → List Glyph → Failure :=
  faultIn "while parsing a quoted scalar" start

private def notHex : String :=
  "did not find expected hexdecimal number"

private def notScalar : String :=
  "found invalid Unicode character escape code"

/-- Reads the escape in front and returns its length too. -/
def readEscape (start : Mark) (gs : List Glyph) : Except Failure (Char × Nat) :=
  match escape? (charAt 1 gs) with
  | none => .error (fault start "found unknown escape character" gs)
  | some (.char c) => .ok (c, 2)
  | some (.code digits) =>
    match Text.natural? 16 (chars ((gs.drop 2).take digits)) with
    | none => .error (fault start notHex (gs.drop 2))
    | some n =>
      if n.isValidChar then .ok (Char.ofNat n, 2 + digits)
      else .error (fault start notScalar (gs.drop 2))

/-- A word up to white space or the closing quote. `escapedBreak` tells that it
ends with an escaped line break. -/
structure Word where
  text : List Char
  escapedBreak : Bool
  rest : List Glyph

def singleWord : List Glyph → Word
  | [] => ⟨[], false, []⟩
  | [g] => ⟨[], false, [g]⟩
  | g :: h :: gs =>
    if g.char = '\'' && h.char = '\'' then
      let w := singleWord gs
      { w with text := '\'' :: w.text }
    else if g.char = '\'' || endsWord g.char then ⟨[], false, g :: h :: gs⟩
    else
      let w := singleWord (h :: gs)
      { w with text := g.char :: w.text }

def doubleWord (start : Mark) (gs : List Glyph) : Except Failure Word :=
  match gs with
  | [] => .ok ⟨[], false, []⟩
  | g :: rest =>
    if g.char = '"' || endsWord g.char then .ok ⟨[], false, gs⟩
    else if g.char = '\\' && isBreak (charAt 0 rest) then .ok ⟨[], true, rest.drop 1⟩
    else if g.char = '\\' then do
      let (c, n) ← readEscape start gs
      let w ← doubleWord start (rest.drop (n - 1))
      return { w with text := c :: w.text }
    else do
      let w ← doubleWord start rest
      return { w with text := g.char :: w.text }
termination_by gs.length
decreasing_by all_goals simp only [List.length_drop, List.length_cons]; omega

/-- Reads on after the text so far, up to the closing quote. -/
def readFrom (double : Bool) (start : Mark) (text : List Char) (gs : List Glyph) :
    Except Failure (List Char × List Glyph) :=
  if isDocumentMarker gs then
    .error (faultIn "while scanning a quoted scalar" start "found unexpected document indicator" gs)
  else if charAt 0 gs = endOfText then
    .error (faultIn "while scanning a quoted scalar" start "found unexpected end of stream" gs)
  else
    match if double then doubleWord start gs else .ok (singleWord gs) with
    | .error f => .error f
    | .ok w =>
      let text := text ++ w.text
      if charAt 0 w.rest = (if double then '"' else '\'') then .ok (text, w.rest.drop 1)
      else
        let gap := Gap.read 0 (if w.escapedBreak then .escaped else .none) w.rest
        if gap.2.length < gs.length then readFrom double start (text ++ gap.1.text) gap.2
        else .ok (text, gap.2)
termination_by gs.length

def read (gs : List Glyph) : Except Failure (List Char × List Glyph) :=
  readFrom (charAt 0 gs = '"') (place gs) [] (gs.drop 1)

end LayoutGuard.Yaml.Quoted
