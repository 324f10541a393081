import Mathlib.Data.List.Basic
import LayoutGuard.Text.Reading

/-!
Reading back what was put together: a reader takes its own piece off the front of
a text and leaves the rest, whatever the rest is, as long as the piece cannot go on
into it.
-/

namespace LayoutGuard.Text

/-- A word is read exactly when the text begins with it. -/
theorem literal?_eq_some_iff {word : String} {cs rest : List Char} :
    literal? word cs = some rest ↔ cs = word.toList ++ rest :=
  List.isPrefixOf?_eq_some_iff_append_eq.trans eq_comm

@[simp] theorem literal?_append (word : String) (rest : List Char) :
    literal? word (word.toList ++ rest) = some rest :=
  literal?_eq_some_iff.mpr rfl

section Stop

variable {p : Char → Bool} {u : List Char} {d : Char}

theorem takeWhile_stop (hu : ∀ c ∈ u, p c = true) (hd : p d = false) (rest : List Char) :
    (u ++ d :: rest).takeWhile p = u := by
  rw [List.takeWhile_append_of_pos hu, List.takeWhile_cons_of_neg (by simp [hd]), List.append_nil]

theorem dropWhile_stop (hu : ∀ c ∈ u, p c = true) (hd : p d = false) (rest : List Char) :
    (u ++ d :: rest).dropWhile p = d :: rest := by
  rw [List.dropWhile_append_of_pos hu, List.dropWhile_cons_of_neg (by simp [hd])]

/-- A run that a character ends does not depend on what follows that character. -/
theorem takeWhile_append_stop (u : List Char) (hd : p d = false) (rest : List Char) :
    (u ++ d :: rest).takeWhile p = u.takeWhile p := by
  induction u with
  | nil => simp [hd]
  | cons c u ih => rw [List.cons_append, List.takeWhile_cons, List.takeWhile_cons, ih]

theorem dropWhile_append_stop (u : List Char) (hd : p d = false) (rest : List Char) :
    (u ++ d :: rest).dropWhile p = u.dropWhile p ++ d :: rest := by
  induction u with
  | nil => simp [hd]
  | cons c u ih =>
    rw [List.cons_append, List.dropWhile_cons, List.dropWhile_cons, ih]
    split <;> rfl

/-- A text is cut in one way at the first character that is not of a kind. -/
theorem eq_of_stop {v : List Char} {e : Char} {cs ds : List Char} (hu : ∀ c ∈ u, p c = true)
    (hd : p d = false) (hv : ∀ c ∈ v, p c = true) (he : p e = false)
    (h : u ++ d :: cs = v ++ e :: ds) : u = v ∧ d :: cs = e :: ds := by
  have hsame : u = v := by
    rw [← takeWhile_stop hu hd cs, h, takeWhile_stop hv he ds]
  exact ⟨hsame, List.append_cancel_left (hsame ▸ h)⟩

end Stop

theorem char?_append_stop {wanted d : Char} (hne : d ≠ wanted) (u rest : List Char) :
    char? wanted (u ++ d :: rest) = (char? wanted u).map (· ++ d :: rest) := by
  cases u with
  | nil => simp [char?, hne]
  | cons c u =>
    rw [List.cons_append, char?, char?]
    split <;> rfl

/-- A reader does not look beyond a character that is not in its word. -/
theorem literal?_append_stop {word : String} {d : Char} (hd : d ∉ word.toList)
    (u rest : List Char) :
    literal? word (u ++ d :: rest) = (literal? word u).map (· ++ d :: rest) := by
  rw [literal?, literal?]
  generalize word.toList = w at hd
  induction w generalizing u with
  | nil => cases u <;> rfl
  | cons c w ih =>
    rw [List.mem_cons, not_or] at hd
    cases u with
    | nil => simp [List.isPrefixOf?, Ne.symm hd.1]
    | cons e u =>
      rw [List.cons_append, List.isPrefixOf?, List.isPrefixOf?, ih u hd.2]
      split <;> rfl

theorem not_mem_of_all {p : Char → Bool} {cs : List Char} (h : cs.all p = true) {c : Char}
    (hc : p c = false) : c ∉ cs := by
  intro hmem
  rw [List.all_eq_true.mp h c hmem] at hc
  cases hc

theorem isNameRest_of_mem_name {cs : List Char} (h : isName cs = true) {c : Char} (hc : c ∈ cs) :
    isNameRest c = true := by
  cases cs with
  | nil => simp at hc
  | cons d ds =>
    simp only [isName, Bool.and_eq_true, List.all_eq_true] at h
    rcases List.mem_cons.mp hc with rfl | hc
    · simp [isNameRest, h.1]
    · exact h.2 c hc

end LayoutGuard.Text
