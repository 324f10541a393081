import LayoutGuard.Probe.Settings
import LayoutGuard.Registry
import LayoutGuard.Text.Lines
import LayoutGuard.Text.Reading

/-!
The probe: a C program that prints the position and the size of every registry
entry. Each `sizeof` stands on a line of its own, so a line number in a compiler
message designates the entry on that line.
-/

namespace LayoutGuard.Probe

/-- A macro definition for the top of the program. -/
structure Define where
  name : List Char
  value : List Char
deriving DecidableEq, Repr

/-- Reads `NAME` or `NAME=VALUE`; blanks around both parts do not count. -/
def Define.ofText (raw : String) : Define :=
  let cs := raw.toList
  ⟨Text.trim (cs.takeWhile fun c => c != '='),
    Text.trim ((cs.dropWhile fun c => c != '=').drop 1)⟩

/-- The value is left out when it is empty. -/
def Define.line (d : Define) : List Char :=
  "#define ".toList ++ d.name ++ (if d.value.isEmpty then [] else ' ' :: d.value)

def entryLead : List Char :=
  "printf(\"%u %llu\\n\", ".toList

def entryLine (index : Nat) (spelling : String) : List Char :=
  "    ".toList ++ entryLead ++ Text.Decimal.render index ++
    "u, (unsigned long long)sizeof(".toList ++ spelling.toList ++ "));".toList

def lines (s : ProbeSettings) (r : Registry) : List (List Char) :=
  ["/* nk-abi layout probe: prints \"<entry> <sizeof>\" for every registry entry */".toList] ++
    s.defines.map (fun d => (Define.ofText d).line) ++
    ["#include <stdint.h>".toList, "#include <stdio.h>".toList,
     "#include \"".toList ++ s.header.toList ++ ['"'], [], "int main(void)".toList, ['\x7b']] ++
    r.spellings.zipIdx.map (fun p => entryLine p.2 p.1) ++
    ["    return 0;".toList, ['\x7d']]

def text (s : ProbeSettings) (r : Registry) : List Char :=
  (lines s r).flatMap fun l => l ++ ['\n']

/-- What running a line prints when types have the given sizes: the index, a
space and the size of the operand of `sizeof`. -/
def printedLine? (sizes : List Char → UInt64) (line : List Char) : Option (List Char) := do
  let rest ← entryLead.isPrefixOf? (Text.skipBlanks line)
  let index := rest.takeWhile Text.isDigit
  let rest ← Text.literal? "u, (unsigned long long)sizeof(" (rest.dropWhile Text.isDigit)
  let operand := rest.takeWhile fun c => c != ')'
  guard (rest.dropWhile (fun c => c != ')') = "));".toList)
  return index ++ ' ' :: Text.Decimal.render (sizes operand).toNat

def printed (sizes : List Char → UInt64) (program : List Char) : List (List Char) :=
  (Text.lines program).filterMap (printedLine? sizes)

def wordBound : Nat :=
  UInt64.size

/-- The index on a line that prints an entry. -/
def printedIndex? (line : List Char) : Option Nat := do
  let rest ← entryLead.isPrefixOf? (Text.skipBlanks line)
  let _ ← Text.literal? "u," (rest.dropWhile Text.isDecimalDigit)
  Text.Decimal.readBelow? wordBound (rest.takeWhile Text.isDecimalDigit)

/-- The lines of a program that print entries, counted from one, with the
indices they print. -/
def entryLines (program : List Char) : List (Nat × Nat) :=
  ((Text.lines program).zipIdx 1).filterMap fun p => (printedIndex? p.1).map fun i => (p.2, i)

/-- The index of the entry on a line of the program. -/
def entryAtLine? (program : List Char) (line : Nat) : Option Nat :=
  (entryLines program).lookup line

end LayoutGuard.Probe
