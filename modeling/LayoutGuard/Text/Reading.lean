import LayoutGuard.Text.Word

/-!
Reading pieces off the front of a text. Each reader returns what is left, which
is never longer than what it was given. `places` lists every position of a text
with the character before it, for patterns that may occur anywhere.
-/

namespace LayoutGuard.Text

def literal? (word : String) (cs : List Char) : Option (List Char) :=
  word.toList.isPrefixOf? cs

def skipBlanks (cs : List Char) : List Char :=
  cs.dropWhile isBlank

def blanks? : List Char → Option (List Char)
  | [] => none
  | c :: cs => if isBlank c then some (skipBlanks cs) else none

def char? (wanted : Char) : List Char → Option (List Char)
  | [] => none
  | c :: cs => if c = wanted then some cs else none

/-- Reads a word that begins like an ASCII name and runs on over all word
characters. -/
def name? : List Char → Option (List Char × List Char)
  | [] => none
  | c :: cs =>
    if isNameStart c then some (c :: cs.takeWhile isWordChar, cs.dropWhile isWordChar) else none

/-- Every place of a text: the character before it and the text from there. -/
def places (before : Option Char) : List Char → List (Option Char × List Char)
  | [] => []
  | c :: cs => (before, c :: cs) :: places (some c) cs

def byteLength (cs : List Char) : Nat :=
  cs.foldl (fun n c => n + c.utf8Size) 0

/-- The text before the first occurrence of `mark`, or all of it. -/
def before (mark : List Char) : List Char → List Char
  | [] => []
  | c :: cs => if mark.isPrefixOf (c :: cs) then [] else c :: before mark cs

/-- The elements whose keys are not among `seen` and did not occur before. -/
def distinctFrom {α κ : Type} [DecidableEq κ] (key : α → κ) (seen : List κ) : List α → List α
  | [] => []
  | a :: as =>
    if key a ∈ seen then distinctFrom key seen as
    else a :: distinctFrom key (key a :: seen) as

/-- The first element of each group with equal keys. -/
def distinctBy {α κ : Type} [DecidableEq κ] (key : α → κ) (as : List α) : List α :=
  distinctFrom key [] as

theorem isPrefixOf?_length {w cs rest : List Char} (h : w.isPrefixOf? cs = some rest) :
    rest.length ≤ cs.length := by
  induction w generalizing cs with
  | nil =>
    obtain rfl : cs = rest := by cases cs <;> exact Option.some.inj h
    exact Nat.le_refl _
  | cons a w ih =>
    cases cs with
    | nil => cases h
    | cons b cs =>
      change (if a == b then w.isPrefixOf? cs else none) = some rest at h
      split at h
      · have := ih h
        simp only [List.length_cons]
        omega
      · cases h

theorem literal?_length {word : String} {cs rest : List Char} (h : literal? word cs = some rest) :
    rest.length ≤ cs.length :=
  isPrefixOf?_length h

theorem dropWhile_length (p : Char → Bool) (cs : List Char) :
    (cs.dropWhile p).length ≤ cs.length :=
  (List.dropWhile_sublist p).length_le

theorem char?_length {c : Char} {cs rest : List Char} (h : char? c cs = some rest) :
    rest.length < cs.length := by
  cases cs with
  | nil => simp [char?] at h
  | cons d cs =>
    simp only [char?] at h
    split at h
    · simp only [Option.some.injEq] at h
      simp [h]
    · simp at h

theorem name?_length {cs name rest : List Char} (h : name? cs = some (name, rest)) :
    rest.length < cs.length := by
  cases cs with
  | nil => simp [name?] at h
  | cons d cs =>
    simp only [name?] at h
    split at h
    · simp only [Option.some.injEq, Prod.mk.injEq] at h
      have := dropWhile_length isWordChar cs
      simp only [List.length_cons, ← h.2]
      omega
    · simp at h

end LayoutGuard.Text
