import LayoutGuard.Log
import LayoutGuard.Probe.Program

/-!
Who is to blame when a probe does not compile. A compiler error names a line of
the probe as `probe.c:LINE` or `probe.c(LINE)` and has the word `error` after
it; when that line prints an entry, the entry has no usable type.
-/

namespace LayoutGuard.Probe

def mentionsError (before : Option Char) (cs : List Char) : Bool :=
  (Text.places before cs).any fun place =>
    Text.atWordEdge place.1 place.2 &&
      (Text.literal? "error" place.2).any fun rest => Text.atWordEdge (some 'r') rest

def errorLineDigits? (cs : List Char) : Option (List Char) := do
  let rest ← Text.literal? "probe.c" cs
  guard (rest.head? = some ':' || rest.head? = some '(')
  let digits := (rest.drop 1).takeWhile Text.isDecimalDigit
  guard (!digits.isEmpty)
  guard (mentionsError digits.getLast? ((rest.drop 1).dropWhile Text.isDecimalDigit))
  return digits

/-- The line of the probe that a line of compiler output reports an error in. -/
def errorLine? (line : List Char) : Option Nat := do
  let digits ← (Text.places none line).findSome? fun place => errorLineDigits? place.2
  Text.Decimal.readBelow? wordBound digits

/-- The entry that a line of compiler output blames. -/
def blame? (r : Registry) (program line : List Char) : Option (Binding × List Char) := do
  let index ← entryAtLine? program (← errorLine? line)
  let b ← r.bindings[index]?
  return (b, Text.trim line)

/-- The fault behind failed compilation: the first entry that is blamed, with
remarks about the others, or else everything the compiler said. -/
def diagnose (r : Registry) (compiler : String) (program output : List Char) :
    Fault × List Remark :=
  match (Text.lines output).filterMap (blame? r program) with
  | [] => (.compileFailed compiler (String.ofList output), [])
  | (b, line) :: others =>
    (.unresolvable b.spelling b.odinName (.rejected (String.ofList line)),
      others.map fun p => ⟨.error, "[ERROR] also unresolvable: " ++ p.1.text⟩)

end LayoutGuard.Probe
