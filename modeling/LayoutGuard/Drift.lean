import LayoutGuard.Text.Decimal
import LayoutGuard.Text.Lines
import LayoutGuard.Text.Reading
import LayoutGuard.Drift.Edits

/-!
The drift between a committed file and a regenerated one: the lines that only
one of them has, found along a longest common subsequence, and a difference in
line endings that the lines themselves cannot show. Each line of a printed drift
begins with a sign, so that `decode?` can read the drift back.
-/

namespace LayoutGuard

/-- Differences in line terminators. -/
inductive EndingDrift
  /-- Only one of the documents holds carriage returns. -/
  | lineEndings
  /-- Only one of the documents ends in a line feed. -/
  | trailingNewline
deriving DecidableEq, Repr

structure Drift where
  /-- Committed lines that are not regenerated, with their line numbers. -/
  removed : List (Nat × String)
  /-- Regenerated lines that are not committed, with their line numbers. -/
  added : List (Nat × String)
  endings : Option EndingDrift
deriving DecidableEq, Repr

def EndingDrift.text : EndingDrift → String
  | lineEndings => "line endings differ (expected LF)"
  | trailingNewline => "trailing newline differs"

namespace Drift

def isClean (d : Drift) : Bool :=
  d.removed.isEmpty && d.added.isEmpty && d.endings.isNone

/-- How the terminators of two texts differ, carriage returns before final
newlines. -/
def compareEndings (committed regenerated : List Char) : Option EndingDrift :=
  if committed = regenerated then none
  else if committed.contains '\r' != regenerated.contains '\r' then some .lineEndings
  else if (committed.getLast? == some '\n') != (regenerated.getLast? == some '\n') then
    some .trailingNewline
  else none

def asText (l : Nat × List Char) : Nat × String :=
  (l.1, String.ofList l.2)

def compare (committed regenerated : String) : Drift :=
  let edits := Edits.between (Text.lines committed.toList) (Text.lines regenerated.toList)
  { removed := edits.removed.map asText
    added := edits.added.map asText
    endings := compareEndings committed.toList regenerated.toList }

/-- One record of a printed drift: a sign, the line number and the line. -/
def lineText (sign : Char) (l : Nat × String) : String :=
  String.ofList (sign :: Text.Decimal.padLeft 5 (Text.Decimal.render l.1)) ++ ": " ++ l.2 ++ "\n"

def text (d : Drift) : String :=
  String.join (d.removed.map (lineText '-')) ++ String.join (d.added.map (lineText '+')) ++
    match d.endings with
    | none => ""
    | some e => "!      " ++ e.text ++ "\n"

/-- The drift in line terminators that a record of its own reports. -/
def readEndings? (record : List Char) : Option EndingDrift :=
  [EndingDrift.lineEndings, .trailingNewline].find? fun e => ("     " ++ e.text).toList = record

/-- Reads a line number, which may be padded, and the line behind it. -/
def readNumbered? (record : List Char) : Option (Nat × String) := do
  let digits := (record.dropWhile (· = ' ')).takeWhile Text.isDigit
  let number ← Text.Decimal.read? digits
  let line ← Text.literal? ": " ((record.dropWhile (· = ' ')).dropWhile Text.isDigit)
  return (number, String.ofList line)

def addRecord? (record : List Char) (d : Drift) : Option Drift :=
  match record with
  | '-' :: rest => (readNumbered? rest).map fun l => { d with removed := l :: d.removed }
  | '+' :: rest => (readNumbered? rest).map fun l => { d with added := l :: d.added }
  | '!' :: ' ' :: rest => (readEndings? rest).map fun e => { d with endings := some e }
  | _ => none

/-- Reads records, each of which ends in a line feed. -/
def decodeRecords? : List (List Char) → Option Drift
  | [] => none
  | [last] => if last.isEmpty then some ⟨[], [], none⟩ else none
  | record :: rest => decodeRecords? rest >>= addRecord? record

def decode? (text : String) : Option Drift :=
  decodeRecords? (text.toList.splitOn '\n')

end Drift

end LayoutGuard
