import LayoutGuard.Yaml.Node
import LayoutGuard.Yaml.TokenStream

/-!
Building the tree of the first document from tokens, by descent. A value that is
left out counts as an empty plain scalar. After a fault the rest of the tokens
is dropped, so that every open collection ends with it.
-/

namespace LayoutGuard.Yaml

/-- The tokens ahead and what is known about anchors and tags. -/
structure Outlook where
  tokens : List Token
  /-- The numbers of the anchors' names. -/
  numbers : List (String × Nat)
  /-- The node that each number stands for last, by the order of their beginnings. -/
  slots : List (Nat × Nat)
  nodes : List (Nat × Node)
  handles : List (String × String)

abbrev Build := StateM Outlook

namespace Build

def ofTokens (tokens : List Token) : Outlook :=
  ⟨tokens, [], [], [], []⟩

def peek : Build Token := do
  return (← get).tokens.headD ⟨.streamEnd, .start⟩

def skip : Build Unit :=
  modify fun o => { o with tokens := o.tokens.tail }

/-- Gives up, with a fault that everything behind it shares. -/
def fail (f : Failure) : Build Node := do
  modify fun o => { o with tokens := [⟨.invalid f, .start⟩] }
  return .broken f

def refuse (t : Token) (problem : String) (context : Option (String × Mark)) : Build Node :=
  match t.lexeme with
  | .invalid f => fail f
  | _ => fail (.malformed problem t.mark context)

def absent (m : Mark) : Node :=
  .scalar (.plain "") m

/-- Gives an anchor a number. Names get new ones as long as they are new. -/
def register (name : String) : Build Nat :=
  modifyGet fun o =>
    let number := o.numbers.length
    let slot := o.slots.length
    (slot, { o with
      numbers := (name, number) :: o.numbers.filter fun p => p.1 ≠ name
      slots := (number, slot) :: o.slots })

/-- The anchor and the tag in front of a value. -/
structure Properties where
  anchor : Option String
  tag : Option (String × String)
  /-- Where the value begins, its properties included. -/
  start : Mark
  tagMark : Mark

def properties : Build Properties := do
  let t ← peek
  match t.lexeme with
  | .anchor name =>
    skip
    let u ← peek
    match u.lexeme with
    | .tag h s => skip; return ⟨some name, some (h, s), t.mark, u.mark⟩
    | _ => return ⟨some name, none, t.mark, t.mark⟩
  | .tag h s =>
    skip
    let u ← peek
    match u.lexeme with
    | .anchor name => skip; return ⟨some name, some (h, s), t.mark, t.mark⟩
    | _ => return ⟨none, some (h, s), t.mark, t.mark⟩
  | _ => return ⟨none, none, t.mark, t.mark⟩

/-- The full form of a tag; `none` when its handle is unknown. -/
def expand (handles : List (String × String)) : Option (String × String) → Option (Option String)
  | none => some none
  | some (handle, suffix) =>
    if handle.toList.isEmpty then some (some suffix)
    else (handles.lookup handle).map fun e => some (e ++ suffix)

/-- A tag that says nothing counts as none for scalars. -/
def scalarTag (tag : Option String) : Option String :=
  tag.filter (· ≠ "!")

/-- Notes the node that an anchor stands for. -/
def keep (slot : Option Nat) (n : Node) : Build Node := do
  match slot with
  | some k => modify fun o => { o with nodes := (k, n) :: o.nodes }
  | none => pure ()
  return n

/-- Where a value stands. -/
inductive Place
  | flow
  | block
  /-- A block where list entries need no indentation of their own. -/
  | blockEntry
deriving DecidableEq

def Place.isFlow (p : Place) : Bool :=
  p = .flow

/-- Whether a value with content can begin with a token. -/
def beginsContent (place : Place) : Lexeme → Bool
  | .scalar _ _ => true
  | .flowSequence => true
  | .flowMapping => true
  | .blockSequence => !place.isFlow
  | .blockMapping => !place.isFlow
  | .blockEntry => place = .blockEntry
  | _ => false

mutual

def node (place : Place) : Nat → Build Node
  | 0 => fail .endOfStream
  | fuel + 1 => do
    let t ← peek
    match t.lexeme with
    | .reference name =>
      skip
      match (← get).numbers.lookup name with
      | some number => return .reference number t.mark
      | none => fail (.unknownAnchor t.mark)
    | _ =>
      let p ← properties
      let t ← peek
      match expand (← get).handles p.tag with
      | none =>
        refuse ⟨.tag "" "", p.tagMark⟩ "found undefined tag handle"
          (some ("while parsing a node", p.start))
      | some tag =>
        if beginsContent place t.lexeme || p.anchor.isSome || tag.isSome then
          let slot ← p.anchor.mapM register
          keep slot (← content place tag p.start t fuel)
        else
          refuse t "did not find expected node content"
            (some (if place.isFlow then "while parsing a flow node" else "while parsing a block node",
              p.start))

/-- Reads a value behind its properties; it may be left out behind these. -/
def content (place : Place) (tag : Option String) (start : Mark) (t : Token) : Nat → Build Node
  | 0 => fail .endOfStream
  | fuel + 1 => do
    if !beginsContent place t.lexeme then return .scalar ⟨"", .plain, tag⟩ start
    else
      match t.lexeme with
      | .scalar text style => skip; return .scalar ⟨text, style, scalarTag tag⟩ start
      | .flowSequence => skip; return .sequence (← flowItems t.mark true fuel) start
      | .flowMapping => skip; return .mapping (← flowEntries t.mark true fuel) start
      | .blockSequence => skip; return .sequence (← blockItems t.mark fuel) start
      | .blockMapping => skip; return .mapping (← blockEntries t.mark fuel) start
      | _ => return .sequence (← indentless fuel) start

/-- Reads a value, unless the token in front is one of those that may follow
where a value is left out. -/
def nodeUnless (ends : Lexeme → Bool) (place : Place) (missing : Mark) : Nat → Build Node
  | 0 => fail .endOfStream
  | fuel + 1 => do
    if ends (← peek).lexeme then return absent missing
    else node place fuel

def blockItems (start : Mark) : Nat → Build (List Node)
  | 0 => do return [← fail .endOfStream]
  | fuel + 1 => do
    let t ← peek
    match t.lexeme with
    | .blockEntry =>
      skip
      let item ← nodeUnless (fun l => l = .blockEntry || l = .blockEnd) .block t.mark.next fuel
      return item :: (← blockItems start fuel)
    | .blockEnd => skip; return []
    | _ =>
      return [← refuse t "did not find expected '-' indicator"
        (some ("while parsing a block collection", start))]

/-- The entries of a block list that is not indented against its key. -/
def indentless : Nat → Build (List Node)
  | 0 => do return [← fail .endOfStream]
  | fuel + 1 => do
    let t ← peek
    match t.lexeme with
    | .blockEntry =>
      skip
      let item ← nodeUnless
        (fun l => l = .blockEntry || l = .key || l = .value || l = .blockEnd) .block t.mark.next fuel
      return item :: (← indentless fuel)
    | .invalid f => return [← fail f]
    | _ => return []

def blockEntries (start : Mark) : Nat → Build (List (Node × Node))
  | 0 => do return [(← fail .endOfStream, .void)]
  | fuel + 1 => do
    let ends : Lexeme → Bool := fun l => l = .key || l = .value || l = .blockEnd
    let t ← peek
    match t.lexeme with
    | .blockEnd => skip; return []
    | .key =>
      skip
      let k ← nodeUnless ends .blockEntry t.mark.next fuel
      let v ← blockValue fuel
      return (k, v) :: (← blockEntries start fuel)
    | _ =>
      return [(← refuse t "did not find expected key" (some ("while parsing a block mapping", start)),
        .void)]

def blockValue : Nat → Build Node
  | 0 => fail .endOfStream
  | fuel + 1 => do
    let t ← peek
    match t.lexeme with
    | .value =>
      skip
      nodeUnless (fun l => l = .key || l = .value || l = .blockEnd) .blockEntry t.mark.next fuel
    | .invalid f => fail f
    | _ => return absent t.mark

/-- The value behind a key inside brackets, where `ends` tells what may follow
when it is left out. -/
def flowValue (ends : Lexeme → Bool) : Nat → Build Node
  | 0 => fail .endOfStream
  | fuel + 1 => do
    let t ← peek
    match t.lexeme with
    | .value =>
      skip
      nodeUnless ends .flow (← peek).mark fuel
    | .invalid f => fail f
    | _ => return absent t.mark

def flowItems (start : Mark) (first : Bool) : Nat → Build (List Node)
  | 0 => do return [← fail .endOfStream]
  | fuel + 1 => do
    let t ← peek
    if t.lexeme = .flowSequenceEnd then do
      skip
      return []
    else if !first && t.lexeme ≠ .flowEntry then
      return [← refuse t "did not find expected ',' or ']'"
        (some ("while parsing a flow sequence", start))]
    else
      if !first then skip
      let t ← peek
      match t.lexeme with
      | .flowSequenceEnd => skip; return []
      | .key =>
        skip
        let entry ← flowPair fuel
        return .mapping [entry] t.mark :: (← flowItems start false fuel)
      | _ =>
        let item ← node .flow fuel
        return item :: (← flowItems start false fuel)

/-- An entry of a mapping that is written as an item of a bracketed list. A key
that is left out takes the token behind it along. -/
def flowPair : Nat → Build (Node × Node)
  | 0 => do return (← fail .endOfStream, .void)
  | fuel + 1 => do
    let ends : Lexeme → Bool := fun l => l = .flowEntry || l = .flowSequenceEnd
    let t ← peek
    if t.lexeme = .value || ends t.lexeme then do
      skip
      return (absent t.mark.next, ← flowValue ends fuel)
    else
      let k ← node .flow fuel
      return (k, ← flowValue ends fuel)

def flowEntries (start : Mark) (first : Bool) : Nat → Build (List (Node × Node))
  | 0 => do return [(← fail .endOfStream, .void)]
  | fuel + 1 => do
    let ends : Lexeme → Bool := fun l => l = .flowEntry || l = .flowMappingEnd
    let t ← peek
    if t.lexeme = .flowMappingEnd then do
      skip
      return []
    else if !first && t.lexeme ≠ .flowEntry then
      return [(← refuse t "did not find expected ',' or '\x7d'"
        (some ("while parsing a flow mapping", start)), .void)]
    else
      if !first then skip
      let t ← peek
      match t.lexeme with
      | .flowMappingEnd => skip; return []
      | .key =>
        skip
        let k ← nodeUnless (fun l => l = .value || ends l) .flow (← peek).mark fuel
        let v ← flowValue ends fuel
        return (k, v) :: (← flowEntries start false fuel)
      | _ =>
        let k ← node .flow fuel
        let after ← peek
        let v ← match after.lexeme with
          | .invalid f => fail f
          | _ => pure (absent after.mark)
        return (k, v) :: (← flowEntries start false fuel)

end

/-- The handles that every document knows. -/
def standardHandles : List (String × String) :=
  [("!", "!"), ("!!", "tag:yaml.org,2002:")]

/-- Reads the directives in front of a document; `versioned` tells whether one
of them gave a version. The result is a fault, if any. -/
def directives (versioned : Bool) : Nat → Build (Option Node)
  | 0 => return none
  | fuel + 1 => do
    let t ← peek
    match t.lexeme with
    | .version major minor =>
      if versioned then
        return some (← refuse t "found duplicate %YAML directive" none)
      else if major ≠ 1 || (minor ≠ 1 && minor ≠ 2) then
        return some (← refuse t "found incompatible YAML document" none)
      else
        skip
        directives true fuel
    | .tagHandle handle expansion =>
      if ((← get).handles.lookup handle).isSome then
        return some (← refuse t "found duplicate %TAG directive" none)
      else
        modify fun o => { o with handles := (handle, expansion) :: o.handles }
        skip
        directives versioned fuel
    | _ => return none

/-- The tokens that follow a document without content. -/
def endsDocument : Lexeme → Bool
  | .version _ _ => true
  | .tagHandle _ _ => true
  | .documentStart => true
  | .documentEnd => true
  | .streamEnd => true
  | _ => false

/-- Reads a document that is introduced by directives or a marker. -/
def explicitDocument (fuel : Nat) : Build Node := do
  match ← directives false fuel with
  | some n => return n
  | none =>
    modify fun o => { o with handles := o.handles ++ standardHandles }
    let t ← peek
    if t.lexeme = .documentStart then
      skip
      nodeUnless endsDocument .block (← peek).mark fuel
    else refuse t "did not find expected <document start>" none

def root (fuel : Nat) : Build Node := do
  match (← peek).lexeme with
  | .streamEnd => return .void
  | .version _ _ | .tagHandle _ _ | .documentStart => explicitDocument fuel
  | _ =>
    modify fun o => { o with handles := standardHandles }
    node .block fuel

/-- The nodes that anchors stand for, by number. -/
def anchored (o : Outlook) : List (Nat × Node) :=
  o.slots.filterMap fun p => (o.nodes.lookup p.2).map fun n => (p.1, n)

/-- The fault that ended the tokens, if any. -/
def failure? (tokens : List Token) : Option Failure :=
  match tokens with
  | ⟨.invalid f, _⟩ :: _ => some f
  | _ => none

def document (tokens : List Token) : Document :=
  let (root, o) := (root (4 * tokens.length + 8)).run (ofTokens tokens)
  let left := o.tokens.dropWhile fun t => t.lexeme = .documentEnd
  { root
    anchored := anchored o
    failure := failure? o.tokens
    more := left.any fun t => t.lexeme ≠ .streamEnd }

end Build

def Document.read (text : String) : Document :=
  Build.document (tokens text.toList)

end LayoutGuard.Yaml
