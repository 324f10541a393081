import LayoutGuard.CType
import LayoutGuard.Text.Reading

/-!
Braced blocks and the keywords that introduce them.
-/

namespace LayoutGuard.Header

/-- Reads on to the brace that closes `depth` open ones: the text up to and
including that brace, and the text after it. -/
def closeBlock (depth : Nat) : List Char → Option (List Char × List Char)
  | [] => none
  | c :: cs =>
    if c = '\x7b' then (closeBlock (depth + 1) cs).map fun r => (c :: r.1, r.2)
    else if c = '\x7d' then
      match depth with
      | 0 => none
      | 1 => some ([c], cs)
      | d + 2 => (closeBlock (d + 1) cs).map fun r => (c :: r.1, r.2)
    else (closeBlock depth cs).map fun r => (c :: r.1, r.2)

/-- The byte position just past the brace that closes the one at position
`start`, where `cs` is the text from `start` on. -/
def matchingBrace? (start : Nat) (cs : List Char) : Option Nat :=
  (closeBlock 0 cs).map fun r => start + Text.byteLength r.1

def compositeKeyword? (cs : List Char) : Option (CType.Kind × List Char) :=
  match Text.literal? "struct" cs with
  | some rest => some (.struct, rest)
  | none => (Text.literal? "union" cs).map fun rest => (.union, rest)

end LayoutGuard.Header
