import LayoutGuard.Header.Comment
import LayoutGuard.Header.Macro

/-!
The composite types that a C header defines. Three forms count: a tagged struct
or union with a body, a typedef of a struct or union with a body, and the
invocation of a macro that pastes a type's name together. The tag of a typedef
belongs to the typedef and is kept beside it.
-/

namespace LayoutGuard

/-- Which of a header's types are of interest. -/
structure LintSettings where
  /-- Only types whose name begins like this are public. -/
  namePrefix : String
  /-- The public part of a header ends where this text occurs first. -/
  implementationMarker : Option String
  /-- Names or spellings of types that are left out on purpose. -/
  ignored : List String
deriving DecidableEq, Repr

def LintSettings.default : LintSettings :=
  ⟨"nk_", some "#ifdef NK_IMPLEMENTATION", []⟩

/-- A type that a header defines, with the spelling of its tag when it is the
name of a tagged typedef. -/
structure HeaderType where
  ctype : CType
  tagSpelling : Option String
deriving DecidableEq, Repr

namespace HeaderType

def spelling (t : HeaderType) : String :=
  t.ctype.spelling

def spellings (t : HeaderType) : List String :=
  t.spelling :: t.tagSpelling.toList

end HeaderType

namespace Header

/-- A definition found at some place of a header. -/
inductive Definition
  | tagged (type : CType)
  | typedef (name : String) (tag : Option String)
  | stamped (type : CType)
deriving DecidableEq, Repr

def taggedHead? (cs : List Char) : Option CType := do
  let (kind, cs) ← compositeKeyword? cs
  let cs ← Text.blanks? cs
  let (name, cs) ← Text.name? cs
  let _ ← Text.char? '\x7b' (Text.skipBlanks cs)
  return ⟨kind, String.ofList name⟩

/-- Reads a typedef of a struct or union with a body up to its semicolon. -/
def typedef? (cs : List Char) : Option (String × Option String) := do
  let cs ← Text.literal? "typedef" cs
  let cs ← Text.blanks? cs
  let (kind, cs) ← compositeKeyword? cs
  let cs := Text.skipBlanks cs
  let tag := Text.name? cs
  let cs := Text.skipBlanks (tag.elim cs Prod.snd)
  guard (cs.head? = some '\x7b')
  let (_, cs) ← closeBlock 0 cs
  let (name, cs) ← Text.name? (Text.skipBlanks cs)
  let _ ← Text.char? ';' (Text.skipBlanks cs)
  return (String.ofList name, tag.map fun t => CType.spelling ⟨kind, String.ofList t.1⟩)

def stamped? (ms : List Macro) (cs : List Char) : Option CType := do
  let (name, cs) ← Text.name? cs
  let cs ← Text.char? '(' (Text.skipBlanks cs)
  let inner : Char → Bool := fun c => c != '(' && c != ')'
  let arguments := cs.takeWhile inner
  guard ((cs.dropWhile inner).head? = some ')')
  let t ← findTemplate? ms name
  t.expand? (splitArguments arguments)

def definition? (ms : List Macro) (place : Option Char × List Char) : Option Definition :=
  if Text.atWordEdge place.1 place.2 then
    match typedef? place.2 with
    | some (name, tag) => some (.typedef name tag)
    | none =>
      match taggedHead? place.2 with
      | some t => some (.tagged t)
      | none => (stamped? ms place.2).map .stamped
  else none

/-- The type that a definition gives, unless it is the tag of a typedef. -/
def Definition.type? (tags : List String) : Definition → Option HeaderType
  | tagged t => if tags.contains t.spelling then none else some ⟨t, none⟩
  | typedef name tag => some ⟨⟨.typedef, name⟩, tag⟩
  | stamped t => some ⟨t, none⟩

def Definition.tag? : Definition → Option String
  | typedef _ tag => tag
  | _ => none

/-- The part of a header that its users see. -/
def publicPart (s : LintSettings) (cs : List Char) : List Char :=
  match s.implementationMarker with
  | none => cs
  | some marker => Text.before marker.toList cs

def definitions (cs : List Char) : List Definition :=
  let (ms, source) := splitMacros true cs
  (Text.places none source).filterMap (definition? ms)

def isPublic (s : LintSettings) (t : HeaderType) : Bool :=
  s.namePrefix.toList.isPrefixOf t.ctype.name.toList &&
    !(s.ignored.any fun i => i = t.ctype.name || t.spellings.contains i)

/-- The public types of a header in order, each spelling once. -/
def scan (s : LintSettings) (header : String) : List HeaderType :=
  let found := definitions (stripComments (publicPart s header.toList))
  let tags := found.filterMap Definition.tag?
  Text.distinctBy HeaderType.spelling
    ((found.filterMap (Definition.type? tags)).filter (isPublic s))

end Header

end LayoutGuard
