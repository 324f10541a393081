/-!
Edits between two lists. A table holds, for every pair of suffixes, the length
of a longest common subsequence; walking along it keeps as many elements as
possible and numbers the others on the side they belong to.
-/

namespace LayoutGuard

/-- Elements present on one side only, with their positions counted from one. -/
structure Edits (α : Type) where
  removed : List (Nat × α)
  added : List (Nat × α)
deriving DecidableEq, Repr

namespace Edits

variable {α : Type} [DecidableEq α]

/-- The row of the table for `a :: as` from the row for `as`. A row holds one
length for each suffix of the new list, the longest suffix first. -/
def extendRow (a : α) : List α → List Nat → List Nat
  | [], _ => [0]
  | b :: bs, row =>
    let rest := extendRow a bs row.tail
    (if a = b then row.tail.headD 0 + 1 else max (row.headD 0) (rest.headD 0)) :: rest

/-- One row for each suffix of the old list, the longest suffix first. -/
def lengthTable : List α → List α → List (List Nat)
  | [], new => [List.replicate (new.length + 1) 0]
  | a :: as, new =>
    let rows := lengthTable as new
    extendRow a new (rows.headD []) :: rows

/-- The entry of the table for the two lists themselves. -/
def corner (rows : List (List Nat)) : Nat :=
  (rows.headD []).headD 0

/-- Walks along both lists, whose elements carry the numbers `i` and `j`. Equal
elements are kept. Otherwise the old element goes when the rest of the old list
has at least as much in common with the new one as the old list with the rest
of the new one; else the new element comes. -/
def walk (i j : Nat) : List α → List α → List (List Nat) → Edits α
  | [], new, _ => ⟨[], new.zipIdx j |>.map Prod.swap⟩
  | a :: old, [], _ => ⟨(a :: old).zipIdx i |>.map Prod.swap, []⟩
  | a :: old, b :: new, rows =>
    if a = b then
      walk (i + 1) (j + 1) old new (rows.tail.map List.tail)
    else if corner rows.tail ≥ corner (rows.map List.tail) then
      let rest := walk (i + 1) j old (b :: new) rows.tail
      ⟨(i, a) :: rest.removed, rest.added⟩
    else
      let rest := walk i (j + 1) (a :: old) new (rows.map List.tail)
      ⟨rest.removed, (j, b) :: rest.added⟩
termination_by old new => old.length + new.length

def between (old new : List α) : Edits α :=
  walk 1 1 old new (lengthTable old new)

end Edits

end LayoutGuard
