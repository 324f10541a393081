import LayoutGuard.Text.Blank

/-!
Paths as texts. A path is cut at slashes; empty segments and lone dots carry no
meaning, except that a relative path may begin with a dot. Joining keeps the
texts of both sides, so it is associative wherever the middle part is not empty.
-/

namespace LayoutGuard

structure Path where
  text : String
deriving DecidableEq, Repr

namespace Path

def isEmpty (p : Path) : Bool :=
  p.text.toList.isEmpty

def isAbsolute (p : Path) : Bool :=
  p.text.toList.head? = some '/'

/-- The text between slashes, empty pieces included. -/
def segments (p : Path) : List (List Char) :=
  p.text.toList.splitOn '/'

/-- `base.join p` designates `p` as seen from `base`. -/
def join (base p : Path) : Path :=
  if p.isAbsolute then p
  else if base.isEmpty || base.text.toList.getLast? = some '/' then ⟨base.text ++ p.text⟩
  else ⟨base.text ++ "/" ++ p.text⟩

/-- Drops the segments after the last one that names something. -/
private def dropIdle : List (List Char) → List (List Char)
  | [] => []
  | s :: rest =>
    match dropIdle rest with
    | [] => if s.isEmpty || s = ['.'] then [] else [s]
    | r :: rs => s :: r :: rs

/-- Splits off the leading segment when it is the dot of a relative path. -/
private def splitDot : List (List Char) → List (List Char) × List (List Char)
  | ['.'] :: rest => ([['.']], rest)
  | rest => ([], rest)

/-- The path without its last meaningful segment. The root and the empty path
have no parent; the parent of a bare name is the empty path. -/
def parent? (p : Path) : Option Path :=
  let (head, body) := if p.isAbsolute then ([], p.segments) else splitDot p.segments
  match dropIdle body with
  | [] => if head.isEmpty then none else some ⟨""⟩
  | s :: rest =>
    match dropIdle (s :: rest).dropLast with
    | [] => some ⟨if p.isAbsolute then "/" else String.ofList (List.intercalate ['/'] head)⟩
    | t :: ts => some ⟨String.ofList (List.intercalate ['/'] (head ++ t :: ts))⟩

/-- The directory that holds the file: its parent when that has any text. -/
def directory? (p : Path) : Option Path :=
  p.parent?.filter fun q => !q.isEmpty

/-- The last meaningful segment, unless it leads upwards. -/
def name? (p : Path) : Option Path :=
  let last := (p.segments.filter fun s => !s.isEmpty && s != ['.']).getLast?
  (last.filter fun s => s != ['.', '.']).map fun s => ⟨String.ofList s⟩

/-- A lone segment is in no directory that has a name. -/
theorem directory?_of_segments {p : Path} {s : List Char} (hrelative : p.isAbsolute = false)
    (h : p.segments = [s]) : p.directory? = none := by
  have hdrop : dropIdle [s] = [] ∨ dropIdle [s] = [s] := by
    simp only [dropIdle]
    split
    · exact Or.inl rfl
    · exact Or.inr rfl
  by_cases hdot : s = ['.']
  · subst hdot
    simp [directory?, parent?, hrelative, h, splitDot, dropIdle, isEmpty]
  · have hsplit : splitDot [s] = ([], [s]) := by
      unfold splitDot
      split
      next hs => exact absurd (List.cons.inj hs).1 hdot
      next => rfl
    rcases hdrop with hdrop | hdrop
    · simp [directory?, parent?, hrelative, h, hsplit, hdrop]
    · simp [directory?, parent?, hrelative, h, hsplit, hdrop, dropIdle, isEmpty]

end Path

end LayoutGuard
