import LayoutGuard.Yaml.Meaning

/-!
Reading values of an expected shape out of a document. A section is a mapping
with known fields, each of which replaces a part of the section's default value.
What does not fit is reported with the path of keys and its place in the text.
-/

namespace LayoutGuard.Yaml

/-- Where a value is found: the keys that lead to it and its place. -/
structure Spot where
  path : String
  mark : Mark
deriving DecidableEq, Repr

/-- A field of a section of type `σ`. Reading its value, which has a path of its
own, gives a change to the section. -/
structure Field (σ : Type) where
  name : String
  change : Document → Spot → String → Node → Except Failure (σ → σ)

namespace Schema

/-- The path of the value behind a key; the root has an empty path. -/
def child (path key : String) : String :=
  if path.isEmpty then key else path ++ "." ++ key

def element (path : String) (i : Nat) : String :=
  path ++ "[" ++ Text.Decimal.text i ++ "]"

def refuse {α : Type} (d : Document) (expected path : String) (n : Node) : Except Failure α :=
  match d.resolve n with
  | .scalar s m => .error (.mismatch (s.mismatch expected) path m)
  | .sequence _ m => .error (.mismatch (.invalidType "sequence" expected) path m)
  | .mapping _ m => .error (.mismatch (.invalidType "map" expected) path m)
  | .broken f => .error f
  | _ => .error .endOfStream

def text (d : Document) (expected path : String) (n : Node) : Except Failure String :=
  match d.resolve n with
  | .scalar s _ => .ok s.text
  | other => refuse d expected path other

def nullTag : String :=
  "tag:yaml.org,2002:null"

/-- Reads a text that may be missing. A null tag on another text is a fault of
the section around it. -/
def optionalText (d : Document) (section_ : Spot) (path : String) (n : Node) :
    Except Failure (Option String) :=
  match d.resolve n with
  | .scalar s _ =>
    let null := Meaning.isNull s.text.toList
    if s.style ≠ .plain then .ok (some s.text)
    else
      match s.tag with
      | none => .ok (if null || s.isBlank then none else some s.text)
      | some tag =>
        if tag ≠ nullTag then .ok (some s.text)
        else if null then .ok none
        else .error (.mismatch (.invalidValue (Meaning.quotedText s.text) "null")
          section_.path section_.mark)
  | other => (text d "a string" path other).map some

def texts (d : Document) (expected path : String) (n : Node) : Except Failure (List String) :=
  match d.resolve n with
  | .sequence items _ => items.zipIdx.mapM fun p => text d expected (element path p.2) p.1
  | .scalar s m =>
    if s.isBlank then .ok [] else refuse d "a sequence" path (.scalar s m)
  | other => refuse d "a sequence" path other

/-- A key of a section: its name, its place and its text in paths. -/
structure Key where
  name : String
  mark : Mark
  label : String

/-- Reads a key. Only a key that is written out has a label. -/
def key (d : Document) (path : String) (n : Node) : Except Failure Key :=
  match n, d.resolve n with
  | .scalar s m, _ => .ok ⟨s.text, m, s.text⟩
  | _, .scalar s m => .ok ⟨s.text, m, "?"⟩
  | _, other => refuse d "field identifier" path other

/-- Reads the entries of a section in order; `seen` holds the names so far. -/
def entries {σ : Type} (d : Document) (fields : List (Field σ)) (spot : Spot) (seen : List String)
    (value : σ) : List (Node × Node) → Except Failure σ
  | [] => .ok value
  | (k, v) :: rest => do
    let k ← key d spot.path k
    match fields.find? fun f => f.name = k.name with
    | none =>
      .error (.mismatch (.unknownField k.name (fields.map Field.name)) spot.path k.mark)
    | some f =>
      if seen.contains k.name then
        .error (.mismatch (.duplicateField k.name) spot.path spot.mark)
      else
        let change ← f.change d spot (child spot.path k.label) v
        entries d fields spot (k.name :: seen) (change value) rest

/-- Reads a section; an empty value leaves all at the default. -/
def sectionOf {σ : Type} (d : Document) (fields : List (Field σ)) (expected path : String)
    (default : σ) (n : Node) : Except Failure σ :=
  match d.resolve n with
  | .mapping es m => entries d fields ⟨path, m⟩ [] default es
  | .scalar s m =>
    if s.isBlank then .ok default else refuse d expected path (.scalar s m)
  | .void => .ok default
  | other => refuse d expected path other

def textField {σ : Type} (name expected : String) (set : String → σ → σ) : Field σ :=
  ⟨name, fun d _ path n => (text d expected path n).map set⟩

def optionalField {σ : Type} (name : String) (set : Option String → σ → σ) : Field σ :=
  ⟨name, fun d spot path n => (optionalText d spot path n).map set⟩

/-- A field that holds a list of texts, which is replaced as a whole. -/
def textsField {σ : Type} (name expected : String) (set : List String → σ → σ) : Field σ :=
  ⟨name, fun d _ path n => (texts d expected path n).map set⟩

def sectionField {σ τ : Type} (name expected : String) (fields : List (Field τ)) (default : τ)
    (set : τ → σ → σ) : Field σ :=
  ⟨name, fun d _ path n => (sectionOf d fields expected path default n).map set⟩

end Schema

/-- Reads the root of a document that has to be the only one and whole. -/
def Document.decode {α : Type} (d : Document) (read : Node → Except Failure α) :
    Except Failure α := do
  let a ← read d.root
  match d.failure with
  | some f => .error f
  | none => if d.more then .error .moreThanOneDocument else return a

end LayoutGuard.Yaml
