import LayoutGuard.Header.Block

/-!
Function-like macros. A definition stands on a logical line, whose physical
lines are joined by backslashes. When its body defines a struct or union whose
name is pasted together from pieces, each invocation of the macro defines the
type that results from replacing the parameters among the pieces.
-/

namespace LayoutGuard.Header

/-- A function-like macro as it is written. -/
structure Macro where
  name : List Char
  parameters : List Char
  body : List Char
deriving DecidableEq, Repr

/-- Splits a text after its first logical line; a line feed after a backslash,
with or without a carriage return between them, does not end the line. -/
def logicalLine : List Char → List Char × List Char
  | [] => ([], [])
  | '\\' :: '\n' :: cs =>
    let (line, rest) := logicalLine cs
    ('\\' :: '\n' :: line, rest)
  | '\\' :: '\r' :: '\n' :: cs =>
    let (line, rest) := logicalLine cs
    ('\\' :: '\r' :: '\n' :: line, rest)
  | c :: cs =>
    if c = '\n' then ([], c :: cs)
    else
      let (line, rest) := logicalLine cs
      (c :: line, rest)

theorem logicalLine_length (cs : List Char) : (logicalLine cs).2.length ≤ cs.length := by
  fun_induction logicalLine cs <;> simp_all <;> omega

def isGap (c : Char) : Bool :=
  c = ' ' || c = '\t'

/-- Reads a macro definition at the start of a line and returns what follows
its logical line. -/
def macro? (cs : List Char) : Option (Macro × List Char) := do
  let cs ← Text.char? '#' (cs.dropWhile isGap)
  let cs ← Text.literal? "define" (cs.dropWhile isGap)
  guard (cs.head?.any isGap)
  let (name, cs) ← Text.name? (cs.dropWhile isGap)
  let cs ← Text.char? '(' cs
  let parameters := cs.takeWhile fun c => c != ')'
  let cs ← Text.char? ')' (cs.dropWhile fun c => c != ')')
  let (body, rest) := logicalLine cs
  return (⟨name, parameters, body⟩, rest)

theorem macro?_length {cs rest : List Char} {m : Macro} (h : macro? cs = some (m, rest)) :
    rest.length < cs.length := by
  rw [macro?] at h
  obtain ⟨a, ha, h⟩ := Option.bind_eq_some_iff.mp h
  obtain ⟨b, hb, h⟩ := Option.bind_eq_some_iff.mp h
  obtain ⟨_, _, h⟩ := Option.bind_eq_some_iff.mp h
  obtain ⟨⟨n, c⟩, hc, h⟩ := Option.bind_eq_some_iff.mp h
  obtain ⟨d, hd, h⟩ := Option.bind_eq_some_iff.mp h
  obtain ⟨e, he, h⟩ := Option.bind_eq_some_iff.mp h
  obtain rfl : (logicalLine e).2 = rest := congrArg Prod.snd (Option.some.inj h)
  have h1 := Text.char?_length ha
  have h2 := Text.literal?_length hb
  have h3 := Text.name?_length hc
  have h4 := Text.char?_length hd
  have h5 := Text.char?_length he
  have h6 := logicalLine_length e
  have g1 := Text.dropWhile_length isGap cs
  have g2 := Text.dropWhile_length isGap a
  have g3 := Text.dropWhile_length isGap b
  have g4 := Text.dropWhile_length (fun c => c != ')') d
  omega

/-- Takes the macro definitions out of a text. `lineStart` tells whether the
text begins a line. -/
def splitMacros (lineStart : Bool) : List Char → List Macro × List Char
  | [] => ([], [])
  | c :: cs =>
    match _h : if lineStart then macro? (c :: cs) else none with
    | some (m, rest) =>
      let (ms, source) := splitMacros false rest
      (m :: ms, source)
    | none =>
      let (ms, source) := splitMacros (c = '\n') cs
      (ms, c :: source)
termination_by cs => cs.length
decreasing_by
  · split at _h
    · exact macro?_length _h
    · simp at _h
  · simp

/-- A macro whose invocations define a type. -/
structure Template where
  kind : CType.Kind
  parameters : List (List Char)
  /-- The parts of the name; a part that is a parameter stands for its argument. -/
  pieces : List (List Char)
deriving DecidableEq, Repr

def splitPaste : List Char → List (List Char)
  | [] => [[]]
  | '#' :: '#' :: cs => [] :: splitPaste cs
  | c :: cs =>
    match splitPaste cs with
    | [] => [[c]]
    | p :: ps => (c :: p) :: ps

def isPasteChar (c : Char) : Bool :=
  Text.isWordChar c || c = '#'

def hasPaste : List Char → Bool
  | '#' :: '#' :: _ => true
  | _ :: cs => hasPaste cs
  | [] => false

def pastedHead? (place : Option Char × List Char) :
    Option (CType.Kind × List (List Char)) := do
  guard (Text.atWordEdge place.1 place.2)
  let (kind, cs) ← compositeKeyword? place.2
  let cs ← Text.blanks? cs
  guard (cs.head?.any Text.isNameStart)
  let name := cs.takeWhile isPasteChar
  guard (hasPaste name)
  let _ ← Text.char? '\x7b' (Text.skipBlanks (cs.dropWhile isPasteChar))
  return (kind, splitPaste name)

def splitArguments (cs : List Char) : List (List Char) :=
  (cs.splitOn ',').map Text.trim

/-- The template that a macro gives, if its body defines a type by pasting. -/
def Macro.template? (m : Macro) : Option Template :=
  ((Text.places none m.body).findSome? pastedHead?).map fun (kind, pieces) =>
    ⟨kind, splitArguments m.parameters, pieces⟩

/-- The type that an invocation defines. It needs an argument for every
parameter among the pieces, and the pasted name has to be a C identifier. -/
def Template.expand? (t : Template) (arguments : List (List Char)) : Option CType := do
  let parts ← t.pieces.mapM fun piece =>
    match t.parameters.idxOf? piece with
    | some i => arguments[i]?
    | none => some piece
  let name := parts.flatten
  guard (Text.isName name)
  return ⟨t.kind, String.ofList name⟩

/-- The last template given under a macro's name. -/
def findTemplate? (ms : List Macro) (name : List Char) : Option Template :=
  (ms.reverse.filterMap fun m => m.template?.map fun t => (m.name, t)).lookup name

end LayoutGuard.Header
