import LayoutGuard.Probe.Program
import LayoutGuard.SizeTable

/-!
The size listing that a probe prints: one line per entry with its index, a space
and its size. Blank lines do not count, later lines replace earlier ones for the
same entry, and every entry has to have a line.
-/

namespace LayoutGuard.Probe

/-- Splits a line into two runs of digits with a space between them. -/
def digitPair? (line : List Char) : Option (List Char × List Char) := do
  let first := line.takeWhile Text.isDecimalDigit
  let rest ← Text.char? ' ' (line.dropWhile Text.isDecimalDigit)
  guard (!first.isEmpty && !rest.isEmpty && rest.all Text.isDecimalDigit)
  return (first, rest)

/-- Reads one line of a listing for a registry of `count` entries. -/
def readLine (count : Nat) (line : List Char) : Except ListingProblem (Nat × UInt64) :=
  match digitPair? line with
  | none => .error (.strangeLine (String.ofList line))
  | some (first, second) =>
    match Text.Decimal.readBelow? wordBound first with
    | none => .error (.badIndex (String.ofList line))
    | some index =>
      match Text.Decimal.readBelow? wordBound second with
      | none => .error (.badSize (String.ofList line))
      | some size =>
        if index < count then .ok (index, UInt64.ofNat size)
        else .error (.outsideRegistry index)

/-- The lines that count, without the blanks around them. -/
def listingLines (output : List Char) : List (List Char) :=
  ((Text.lines output).map Text.trim).filter fun l => !l.isEmpty

def lastSize? (read : List (Nat × UInt64)) (index : Nat) : Option UInt64 :=
  read.reverse.lookup index

def fillTable (read : List (Nat × UInt64)) (t : SizeTable) :
    List (Binding × Nat) → Except ListingProblem SizeTable
  | [] => .ok t
  | (b, i) :: rest =>
    match lastSize? read i with
    | none => .error (.missingEntry b.text)
    | some size => fillTable read (t.insert b.ctype size) rest

def readListing (r : Registry) (output : List Char) : Except ListingProblem SizeTable := do
  let read ← (listingLines output).mapM (readLine r.size)
  fillTable read SizeTable.empty r.bindings.zipIdx

end LayoutGuard.Probe
