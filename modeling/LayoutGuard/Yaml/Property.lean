import LayoutGuard.Text.Radix
import LayoutGuard.Text.Utf8
import LayoutGuard.Yaml.Glyph
import LayoutGuard.Yaml.Token

/-!
Anchors, aliases and tags, which stand in front of a value, and directives,
which stand in front of a document.
-/

namespace LayoutGuard.Yaml

namespace Property

/-- The punctuation that may stand directly behind an anchor. -/
def endsAnchor (c : Char) : Bool :=
  endsWord c || ['?', ':', ',', ']', '\x7d', '%', '@', '`'].contains c

def anchorName (context : String) (gs : List Glyph) : Except Failure (String × List Glyph) :=
  let (name, rest) := spanChars isNameChar (gs.drop 1)
  if name.isEmpty || !endsAnchor (charAt 0 rest) then
    .error (faultIn context (place gs) "did not find expected alphabetic or numeric character" rest)
  else .ok (String.ofList name, rest)

def readAlias (gs : List Glyph) : Except Failure (String × List Glyph) :=
  anchorName "while scanning an alias" gs

def readAnchor (gs : List Glyph) : Except Failure (String × List Glyph) :=
  anchorName "while scanning an anchor" gs

/-- The characters of a tag. A tag in angle brackets may hold some more. -/
def isTagChar (verbatim : Bool) (c : Char) : Bool :=
  isNameChar c ||
    [';', '/', '?', ':', '@', '&', '=', '+', '$', '.', '%', '!', '~', '*', '\'', '(', ')'].contains c ||
    (verbatim && [',', '[', ']'].contains c)

/-- How a reader of tags reports faults. -/
structure Context where
  name : String
  uriName : String
  start : Mark

def Context.fault (ctx : Context) (problem : String) (gs : List Glyph) : Failure :=
  faultIn ctx.uriName ctx.start problem gs

/-- How many bytes a UTF-8 sequence has, by its first byte. -/
def sequenceLength? (b : Nat) : Option Nat :=
  if b < 0x80 then some 1
  else if b < 0xc0 then none
  else if b < 0xe0 then some 2
  else if b < 0xf0 then some 3
  else if b < 0xf8 then some 4
  else none

/-- The byte that `%` and two hexadecimal digits stand for. -/
def octet? (gs : List Glyph) : Option Nat :=
  if charAt 0 gs = '%' then Text.natural? 16 [charAt 1 gs, charAt 2 gs] else none

def trailingOctets (ctx : Context) : Nat → List Glyph → Except Failure (List UInt8 × List Glyph)
  | 0, gs => .ok ([], gs)
  | n + 1, gs =>
    match octet? gs with
    | none => .error (ctx.fault "did not find URI escaped octet" gs)
    | some b =>
      if 0x80 ≤ b && b < 0xc0 then do
        let (bs, rest) ← trailingOctets ctx n (gs.drop 3)
        return (UInt8.ofNat b :: bs, rest)
      else .error (ctx.fault "found an incorrect trailing UTF-8 octet" gs)

def escapedChar (ctx : Context) (gs : List Glyph) : Except Failure (List Char × List Glyph) :=
  match octet? gs with
  | none => .error (ctx.fault "did not find URI escaped octet" gs)
  | some b =>
    match sequenceLength? b with
    | none => .error (ctx.fault "found an incorrect leading UTF-8 octet" gs)
    | some n => do
      let (bs, rest) ← trailingOctets ctx (n - 1) (gs.drop 3)
      return (Text.Utf8.lenient (UInt8.ofNat b :: bs), rest)

def uriText (ctx : Context) (verbatim : Bool) (gs : List Glyph) :
    Except Failure (List Char × List Glyph) :=
  match gs with
  | [] => .ok ([], [])
  | g :: rest =>
    if g.char = '%' then
      match escapedChar ctx gs with
      | .error f => .error f
      | .ok (c, after) =>
        if after.length ≤ rest.length then do
          let (cs, left) ← uriText ctx verbatim after
          return (c ++ cs, left)
        else .ok (c, after)
    else if isTagChar verbatim g.char then do
      let (cs, left) ← uriText ctx verbatim rest
      return (g.char :: cs, left)
    else .ok ([], gs)
termination_by gs.length

def uri (ctx : Context) (verbatim : Bool) (first : List Char) (gs : List Glyph) :
    Except Failure (String × List Glyph) := do
  let (cs, rest) ← uriText ctx verbatim gs
  if first.isEmpty && cs.isEmpty then
    .error (ctx.fault "did not find expected tag URI" rest)
  else return (String.ofList (first.drop 1 ++ cs), rest)

/-- Reads `!`, `!!` or `!name!`; without the second mark it is only the beginning
of a tag. -/
def handle (gs : List Glyph) : List Char × List Glyph :=
  let (name, rest) := spanChars isNameChar (gs.drop 1)
  if charAt 0 rest = '!' then ('!' :: name ++ ['!'], rest.drop 1) else ('!' :: name, rest)

def isClosed (handle : List Char) : Bool :=
  handle.length ≥ 2 && handle.getLast? = some '!'

def tagBody (ctx : Context) (gs : List Glyph) : Except Failure (String × String × List Glyph) :=
  if charAt 1 gs = '<' then do
    let (suffix, rest) ← uri ctx true [] (gs.drop 2)
    if charAt 0 rest = '>' then return ("", suffix, rest.drop 1)
    else .error (faultIn ctx.name ctx.start "did not find the expected '>'" rest)
  else do
    let (first, rest) := handle gs
    if isClosed first then
      let (suffix, rest) ← uri ctx false [] rest
      return (String.ofList first, suffix, rest)
    else
      let (suffix, rest) ← uri ctx false first rest
      return if suffix.toList.isEmpty then ("", "!", rest) else ("!", suffix, rest)

def readTag (flow : Bool) (gs : List Glyph) : Except Failure (Lexeme × List Glyph) := do
  let ctx : Context := ⟨"while scanning a tag", "while parsing a tag", place gs⟩
  let (first, suffix, rest) ← tagBody ctx gs
  if endsWord (charAt 0 rest) || (flow && charAt 0 rest = ',') then
    return (.tag first suffix, rest)
  else .error (faultIn ctx.name ctx.start "did not find expected whitespace or line break" rest)

end Property

namespace Directive

private def fault (start : Mark) : String → List Glyph → Failure :=
  faultIn "while scanning a directive" start

private def versionFault (start : Mark) : String → List Glyph → Failure :=
  faultIn "while scanning a %YAML directive" start

private def tagFault (start : Mark) : String → List Glyph → Failure :=
  faultIn "while scanning a %TAG directive" start

/-- Reads a number of at most nine digits. -/
def number (start : Mark) (gs : List Glyph) : Except Failure (Nat × List Glyph) :=
  let (digits, rest) := spanChars Text.isDigit gs
  if digits.length > 9 then
    .error (versionFault start "found extremely long version number" (gs.drop 9))
  else if digits.isEmpty then
    .error (versionFault start "did not find expected version number" rest)
  else .ok (digits.foldl (fun n c => 10 * n + (c.toNat - '0'.toNat)) 0, rest)

def version (start : Mark) (gs : List Glyph) : Except Failure (Lexeme × List Glyph) := do
  let (major, rest) ← number start (skipSpaces gs)
  if charAt 0 rest = '.' then
    let (minor, rest) ← number start (rest.drop 1)
    return (.version major minor, rest)
  else .error (versionFault start "did not find expected digit or '.' character" rest)

def tagHandle (start : Mark) (gs : List Glyph) : Except Failure (Lexeme × List Glyph) := do
  let front := skipSpaces gs
  if charAt 0 front ≠ '!' then
    .error (fault start "did not find expected '!'" front)
  else
    let (handle, rest) := Property.handle front
    if !Property.isClosed handle && handle ≠ ['!'] then
      .error (faultIn "while parsing a directive" start "did not find expected '!'" rest)
    else if !isSpace (charAt 0 rest) then
      .error (tagFault start "did not find expected whitespace" rest)
    else
      let ctx : Property.Context := ⟨"while scanning a %TAG directive", "while parsing a %TAG directive", start⟩
      let (expansion, rest) ← Property.uri ctx true [] (skipSpaces rest)
      if endsWord (charAt 0 rest) then return (.tagHandle (String.ofList handle) expansion, rest)
      else .error (tagFault start "did not find expected whitespace or line break" rest)

def arguments (start : Mark) (name : String) (gs : List Glyph) :
    Except Failure (Lexeme × List Glyph) :=
  match name with
  | "YAML" => version start gs
  | "TAG" => tagHandle start gs
  | _ => .error (fault start "found unknown directive name" gs)

/-- Reads the directive in front together with its line break. -/
def read (gs : List Glyph) : Except Failure (Lexeme × List Glyph) := do
  let start := place gs
  let (name, rest) := spanChars isNameChar (gs.drop 1)
  if name.isEmpty then
    .error (fault start "could not find expected directive name" rest)
  else if !endsWord (charAt 0 rest) then
    .error (fault start "found unexpected non-alphabetical character" rest)
  else
    let (lexeme, rest) ← arguments start (String.ofList name) rest
    let rest := skipComment (skipSpaces rest)
    if isBreak (charAt 0 rest) then return (lexeme, rest.drop 1)
    else if charAt 0 rest = endOfText then return (lexeme, rest)
    else .error (fault start "did not find expected comment or line break" rest)

end Directive

end LayoutGuard.Yaml
