import LayoutGuard.Yaml.Property
import LayoutGuard.Yaml.Scalar.Block
import LayoutGuard.Yaml.Scalar.Plain
import LayoutGuard.Yaml.Scalar.Quoted

/-!
Cutting a text into tokens. Indentation opens and closes blocks. Whether a value
is a key of a mapping shows only at the colon behind it, so the place of a value
that may turn out to be one is kept, and its tokens are held back until then.
-/

namespace LayoutGuard.Yaml

/-- A value that may be a key if a colon follows on its line. -/
structure KeyPlace where
  /-- How many tokens are before it. -/
  position : Nat
  mark : Mark
  /-- Nothing but a key can stand there. -/
  required : Bool
deriving DecidableEq, Repr

structure Scanner where
  rest : List Glyph
  /-- The tokens found, the last one in front. -/
  tokens : List Token
  /-- One more than the column of the current block; zero outside blocks. -/
  depth : Nat
  outerDepths : List Nat
  /-- Whether a key or a block entry can begin here. -/
  keyAllowed : Bool
  /-- The possible key inside the innermost brackets. -/
  keyPlace : Option KeyPlace
  /-- The possible keys around each of the open brackets. -/
  outerKeys : List (Option KeyPlace)

namespace Scanner

def longestKey : Nat :=
  1024

def ofGlyphs (gs : List Glyph) : Scanner :=
  ⟨gs, [], 0, [], true, none, []⟩

def inFlow (s : Scanner) : Bool :=
  !s.outerKeys.isEmpty

def here (s : Scanner) : Mark :=
  place s.rest

def emit (s : Scanner) (lexeme : Lexeme) : Scanner :=
  { s with tokens := ⟨lexeme, s.here⟩ :: s.tokens }

/-- Puts tokens in front of those that followed a position. -/
def insertAt (s : Scanner) (position : Nat) (mark : Mark) (lexemes : List Lexeme) : Scanner :=
  let later := s.tokens.take (s.tokens.length - position)
  let earlier := s.tokens.drop (s.tokens.length - position)
  { s with tokens := later ++ (lexemes.map fun l => ⟨l, mark⟩).reverse ++ earlier }

/-- Skips white space, line breaks and comments; the second part tells whether a
key can begin behind them. -/
def skipIdle (flow keyAllowed comment : Bool) : List Glyph → List Glyph × Bool
  | [] => ([], keyAllowed)
  | g :: gs =>
    if comment && !isBreakOrEnd g.char then skipIdle flow keyAllowed true gs
    else if g.char = byteOrderMark && g.mark.column = 0 then skipIdle flow keyAllowed false gs
    else if g.char = ' ' || (g.char = '\t' && (flow || !keyAllowed)) then
      skipIdle flow keyAllowed false gs
    else if g.char = '#' then skipIdle flow keyAllowed true gs
    else if isBreak g.char then skipIdle flow (keyAllowed || !flow) false gs
    else (g :: gs, keyAllowed)

def skip (s : Scanner) : Scanner :=
  let (rest, keyAllowed) := skipIdle s.inFlow s.keyAllowed false s.rest
  { s with rest, keyAllowed }

/-- Whether a place is too far back to be a key. -/
def isStale (now : Mark) (k : KeyPlace) : Bool :=
  k.mark.line < now.line || k.mark.index + longestKey < now.index

private def missingColon (k : KeyPlace) (now : Mark) : Failure :=
  .malformed "could not find expected ':'" now (some ("while scanning a simple key", k.mark))

def dropStale (s : Scanner) : Except Failure Scanner :=
  let stale := (s.keyPlace :: s.outerKeys).filterMap (·.filter (isStale s.here))
  match stale.reverse.find? KeyPlace.required with
  | some k => .error (missingColon k s.here)
  | none =>
    .ok { s with
      keyPlace := s.keyPlace.filter fun k => !isStale s.here k
      outerKeys := s.outerKeys.map fun o => o.filter fun k => !isStale s.here k }

def dropKey (s : Scanner) : Except Failure Scanner :=
  match s.keyPlace with
  | some k =>
    if k.required then .error (missingColon k s.here) else .ok { s with keyPlace := none }
  | none => .ok s

def saveKey (s : Scanner) : Except Failure Scanner :=
  if s.keyAllowed then do
    let place : KeyPlace :=
      ⟨s.tokens.length, s.here, !s.inFlow && s.depth = s.here.column + 1⟩
    let s ← s.dropKey
    return { s with keyPlace := some place }
  else .ok s

def closeBlocks (depth : Nat) (s : Scanner) : Scanner :=
  let open_ := s.depth :: s.outerDepths
  let closed := open_.takeWhile (depth < ·)
  let left := open_.dropWhile (depth < ·)
  { s with
    tokens := List.replicate closed.length ⟨.blockEnd, s.here⟩ ++ s.tokens
    depth := left.headD 0
    outerDepths := left.tail }

/-- Closes blocks, unless inside brackets, where indentation does not count. -/
def unroll (s : Scanner) (depth : Nat) : Scanner :=
  if s.inFlow then s else s.closeBlocks depth

def opensBlock (s : Scanner) (column : Nat) : Bool :=
  !s.inFlow && s.depth ≤ column

/-- Opens a block here if this column is deeper than the current block. -/
def openBlock (s : Scanner) (lexeme : Lexeme) : Scanner :=
  if s.opensBlock s.here.column then
    { s.emit lexeme with depth := s.here.column + 1, outerDepths := s.depth :: s.outerDepths }
  else s

private def refused (s : Scanner) (problem : String) : Failure :=
  .malformed problem s.here none

def symbol (s : Scanner) (lexeme : Lexeme) (n : Nat) (keyAllowed : Bool) : Scanner :=
  { s.emit lexeme with rest := s.rest.drop n, keyAllowed }

/-- The end of the text counts as the beginning of a line. -/
def finish (s : Scanner) : Except Failure Scanner := do
  let m := s.here
  let stop : Mark := if m.column = 0 then m else ⟨m.index, m.line + 1, 0⟩
  let s ← ({ s with rest := [⟨endOfText, stop⟩] }.unroll 0).dropKey
  return s.symbol .streamEnd 1 false

def documentMarker (s : Scanner) (lexeme : Lexeme) : Except Failure Scanner := do
  return (← (s.unroll 0).dropKey).symbol lexeme 3 false

def directive (s : Scanner) : Except Failure Scanner := do
  let s ← (s.unroll 0).dropKey
  let (lexeme, rest) ← Directive.read s.rest
  return { s.emit lexeme with rest, keyAllowed := false }

def openFlow (s : Scanner) (lexeme : Lexeme) : Except Failure Scanner := do
  let s ← s.saveKey
  return { s.symbol lexeme 1 true with keyPlace := none, outerKeys := s.keyPlace :: s.outerKeys }

def closeFlow (s : Scanner) (lexeme : Lexeme) : Except Failure Scanner := do
  let s ← s.dropKey
  let s := match s.outerKeys with
    | [] => s
    | k :: ks => { s with keyPlace := k, outerKeys := ks }
  return s.symbol lexeme 1 false

def flowEntry (s : Scanner) : Except Failure Scanner := do
  return (← s.dropKey).symbol .flowEntry 1 true

def blockEntry (s : Scanner) : Except Failure Scanner :=
  if !s.inFlow && !s.keyAllowed then
    .error (refused s "block sequence entries are not allowed in this context")
  else do return (← (s.openBlock .blockSequence).dropKey).symbol .blockEntry 1 true

def key (s : Scanner) : Except Failure Scanner :=
  if !s.inFlow && !s.keyAllowed then
    .error (refused s "mapping keys are not allowed in this context")
  else do return (← (s.openBlock .blockMapping).dropKey).symbol .key 1 (!s.inFlow)

/-- Puts the tokens of a key in front of the value that turned out to be one. -/
def confirmKey (s : Scanner) (k : KeyPlace) : Scanner :=
  if s.opensBlock k.mark.column then
    { s.insertAt k.position k.mark [.blockMapping, .key] with
      depth := k.mark.column + 1, outerDepths := s.depth :: s.outerDepths, keyPlace := none }
  else { s.insertAt k.position k.mark [.key] with keyPlace := none }

def value (s : Scanner) : Except Failure Scanner :=
  match s.keyPlace with
  | some k => .ok ((s.confirmKey k).symbol .value 1 false)
  | none =>
    if !s.inFlow && !s.keyAllowed then
      .error (refused s "mapping values are not allowed in this context")
    else .ok ((s.openBlock .blockMapping).symbol .value 1 (!s.inFlow))

/-- Reads something that may be a key or stand in front of one. -/
def keyed (s : Scanner) (read : List Glyph → Except Failure (Lexeme × List Glyph)) :
    Except Failure Scanner := do
  let s ← s.saveKey
  let (lexeme, rest) ← read s.rest
  return { s.emit lexeme with rest, keyAllowed := false }

def reference (s : Scanner) : Except Failure Scanner :=
  s.keyed fun gs => (Property.readAlias gs).map fun p => (.reference p.1, p.2)

def anchor (s : Scanner) : Except Failure Scanner :=
  s.keyed fun gs => (Property.readAnchor gs).map fun p => (.anchor p.1, p.2)

def quoted (s : Scanner) : Except Failure Scanner :=
  s.keyed fun gs => (Quoted.read gs).map fun p => (.scalar (String.ofList p.1) .quoted, p.2)

/-- Reads a plain scalar. A new line can begin with a key. -/
def plain (s : Scanner) : Except Failure Scanner := do
  let s ← s.saveKey
  let r ← Plain.read s.inFlow s.depth s.rest
  return { s.emit (.scalar (String.ofList r.text) .plain) with rest := r.rest, keyAllowed := r.broken }

def block (s : Scanner) : Except Failure Scanner := do
  let s ← s.dropKey
  let (text, rest) ← Block.read s.depth s.rest
  return { s.emit (.scalar (String.ofList text) .block) with rest, keyAllowed := true }

def isIndicator (c : Char) : Bool :=
  ['-', '?', ':', ',', '[', ']', '\x7b', '\x7d', '#', '&', '*', '!', '|', '>', '\'', '"', '%', '@',
    '`'].contains c

/-- Whether a plain scalar can begin with `c` and go on with `next`. -/
def startsPlain (flow : Bool) (c next : Char) : Bool :=
  !(endsWord c || isIndicator c) || (c = '-' && !isSpace next) ||
    (!flow && (c = '?' || c = ':') && !endsWord next)

def token (s : Scanner) : Except Failure Scanner :=
  let c := charAt 0 s.rest
  let next := charAt 1 s.rest
  let flow := s.inFlow
  if c = endOfText then s.finish
  else if c = '%' && s.here.column = 0 then s.directive
  else if startsMarker '-' s.rest then s.documentMarker .documentStart
  else if startsMarker '.' s.rest then s.documentMarker .documentEnd
  else if c = '[' then s.openFlow .flowSequence
  else if c = '\x7b' then s.openFlow .flowMapping
  else if c = ']' then s.closeFlow .flowSequenceEnd
  else if c = '\x7d' then s.closeFlow .flowMappingEnd
  else if c = ',' then s.flowEntry
  else if c = '-' && endsWord next then s.blockEntry
  else if c = '?' && (flow || endsWord next) then s.key
  else if c = ':' && (flow || endsWord next) then s.value
  else if c = '*' then s.reference
  else if c = '&' then s.anchor
  else if c = '!' then s.keyed (Property.readTag flow)
  else if !flow && (c = '|' || c = '>') then s.block
  else if c = '\'' || c = '"' then s.quoted
  else if startsPlain flow c next then s.plain
  else
    .error (faultIn "while scanning for the next token" s.here
      "found character that cannot start any token" s.rest)

def step (s : Scanner) : Except Failure Scanner := do
  let s ← s.skip.dropStale
  (s.unroll (s.here.column + 1)).token

/-- The tokens that no possible key holds back. -/
def settled (s : Scanner) : List Token :=
  let held := ((s.keyPlace :: s.outerKeys).filterMap (·.filter fun k => !isStale s.here k)).map
    KeyPlace.position
  s.tokens.reverse.take (held.foldl min s.tokens.length)

def run (s : Scanner) : List Token :=
  match s.rest with
  | [] => s.tokens.reverse
  | _ =>
    match s.step with
    | .error f => s.settled ++ [⟨.invalid f, s.here⟩]
    | .ok next => if next.rest.length < s.rest.length then run next else next.tokens.reverse
termination_by s.rest.length

end Scanner

/-- The tokens of a text. They end with the end of the stream, or where the text
cannot be read on. -/
def tokens (cs : List Char) : List Token :=
  match forbiddenFrom 0 cs with
  | some offset => [⟨.invalid (.badCharacter offset), .start⟩]
  | none => (Scanner.ofGlyphs (glyphs cs)).run

end LayoutGuard.Yaml
