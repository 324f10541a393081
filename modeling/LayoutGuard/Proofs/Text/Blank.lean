import Mathlib.Data.List.Basic
import Mathlib.Data.List.TakeWhile
import LayoutGuard.Text.Ascii
import LayoutGuard.Text.Blank

/-!
Blanks, trimming and words. Digits are no blanks, trimming drops blanks at the ends and
leaves a text alone whose first and last characters are none. Words are read back when
single spaces set them apart, so the collapsed form of a text stands for its words.
-/

namespace LayoutGuard.Text

theorem isBlank_of_isDigit {c : Char} (h : isDigit c = true) : isBlank c = false := by
  simp only [isDigit, Bool.and_eq_true, decide_eq_true_eq, Char.le_def, UInt32.le_iff_toNat_le] at h
  have hlow : 48 ≤ c.toNat := h.1
  have hhigh : c.toNat ≤ 57 := h.2
  simp only [isBlank, inRanges, blankRanges, List.any_cons, List.any_nil, Bool.or_false,
    Bool.or_eq_false_iff, Bool.and_eq_false_iff, decide_eq_false_iff_not]
  omega

theorem trimEnd_append_of_not_blank {cs : List Char} {c : Char} (hc : isBlank c = false) :
    trimEnd (cs ++ [c]) = cs ++ [c] := by
  induction cs with
  | nil => simp [trimEnd, hc]
  | cons d cs ih =>
    rw [List.cons_append, trimEnd, ih]
    cases cs <;> rfl

theorem trim_eq_self {cs : List Char} (hfirst : ∀ c ∈ cs.head?, isBlank c = false)
    (hlast : ∀ c ∈ cs.getLast?, isBlank c = false) : trim cs = cs := by
  cases cs with
  | nil => rfl
  | cons d ds =>
    have hstart : trimStart (d :: ds) = d :: ds := by
      rw [trimStart, List.dropWhile_cons_of_neg]
      simp [hfirst d rfl]
    rw [trim, hstart, ← List.dropLast_append_getLast (List.cons_ne_nil d ds)]
    apply trimEnd_append_of_not_blank
    exact hlast _ (List.getLast?_eq_some_getLast _)

theorem trimEnd_cons (c : Char) (cs : List Char) :
    trimEnd (c :: cs) = if isBlank c = true ∧ trimEnd cs = [] then [] else c :: trimEnd cs := by
  rw [trimEnd]
  cases trimEnd cs <;> simp

theorem trimEnd_sublist (cs : List Char) : (trimEnd cs).Sublist cs := by
  induction cs with
  | nil => exact List.Sublist.slnil
  | cons c cs ih =>
    rw [trimEnd_cons]
    split
    · exact List.nil_sublist _
    · exact ih.cons_cons c

theorem trim_sublist (cs : List Char) : (trim cs).Sublist cs :=
  (trimEnd_sublist _).trans (List.dropWhile_sublist isBlank)

/-! Blanks at the ends -/

theorem trim_cons_blank {c : Char} (hc : isBlank c = true) (cs : List Char) :
    trim (c :: cs) = trim cs := by
  rw [trim, trim, trimStart, List.dropWhile_cons_of_pos hc, trimStart]

section Gap

variable {gap : List Char} (hgap : ∀ c ∈ gap, isBlank c = true)

include hgap

theorem trimEnd_gap : trimEnd gap = [] := by
  induction gap with
  | nil => rfl
  | cons c gap ih =>
    have hrest : trimEnd gap = [] := ih fun d hd => hgap d (List.mem_cons_of_mem c hd)
    rw [trimEnd_cons, if_pos ⟨hgap c List.mem_cons_self, hrest⟩]

theorem trimEnd_append_gap (cs : List Char) : trimEnd (cs ++ gap) = trimEnd cs := by
  induction cs with
  | nil => exact trimEnd_gap hgap
  | cons c cs ih => rw [List.cons_append, trimEnd_cons, trimEnd_cons, ih]

theorem trim_append_gap (cs : List Char) : trim (cs ++ gap) = trim cs := by
  induction cs with
  | nil =>
    have hnil : trimStart gap = [] := List.dropWhile_eq_nil_iff.mpr hgap
    rw [List.nil_append, trim, hnil]
    rfl
  | cons c cs ih =>
    cases hc : isBlank c with
    | true => rw [List.cons_append, trim_cons_blank hc, trim_cons_blank hc, ih]
    | false =>
      have hstart (ds : List Char) : trimStart (c :: ds) = c :: ds := by
        rw [trimStart, List.dropWhile_cons_of_neg (by simp [hc])]
      rw [trim, trim, List.cons_append, hstart, hstart, ← List.cons_append,
        trimEnd_append_gap hgap]

theorem trim_gap_append (cs : List Char) : trim (gap ++ cs) = trim cs := by
  induction gap with
  | nil => rfl
  | cons c gap ih =>
    rw [List.cons_append, trim_cons_blank (hgap c List.mem_cons_self),
      ih fun d hd => hgap d (List.mem_cons_of_mem c hd)]

end Gap

/-! Words -/

theorem words_of_not_blank {w : List Char} (hnil : w ≠ []) (hw : ∀ c ∈ w, isBlank c = false) :
    words w = [w] := by
  rw [words, List.splitOnP_eq_singleton hw]
  simp [hnil]

/-- A blank ends a word, and words on both sides are read apart. -/
theorem words_append_blank {c : Char} (hc : isBlank c = true) (u v : List Char) :
    words (u ++ c :: v) = words u ++ words v := by
  rw [words, List.splitOnP_append_cons u v hc, List.filter_append]
  rfl

/-- What `splitOnP` cuts a text into holds nothing to cut at. -/
theorem not_of_mem_splitOnP {p : Char → Bool} {cs piece : List Char}
    (h : piece ∈ cs.splitOnP p) : ∀ c ∈ piece, p c = false := by
  induction cs generalizing piece with
  | nil =>
    obtain rfl : piece = [] := by simpa using h
    simp
  | cons d cs ih =>
    rw [List.splitOnP_cons_eq_if_modifyHead] at h
    obtain ⟨first, others, hpieces⟩ := List.exists_cons_of_ne_nil (List.splitOnP_ne_nil p cs)
    rw [hpieces] at h ih
    cases hd : p d with
    | true =>
      rw [if_pos hd] at h
      rcases List.mem_cons.mp h with rfl | h
      · simp
      · exact ih h
    | false =>
      rw [if_neg (by simp [hd]), List.modifyHead_cons] at h
      rcases List.mem_cons.mp h with rfl | h
      · exact List.forall_mem_cons.mpr ⟨hd, ih List.mem_cons_self⟩
      · exact ih (List.mem_cons_of_mem first h)

theorem not_mem_of_mem_splitOn {d : Char} {cs piece : List Char} (h : piece ∈ cs.splitOn d) :
    d ∉ piece := by
  rw [List.splitOn_eq_splitOnP] at h
  intro hmem
  simpa using not_of_mem_splitOnP h d hmem

theorem ne_nil_of_mem_words {cs w : List Char} (h : w ∈ words cs) : w ≠ [] := by
  have hfilled := (List.mem_filter.mp h).2
  simpa using hfilled

theorem not_blank_of_mem_words {cs w : List Char} (h : w ∈ words cs) :
    ∀ c ∈ w, isBlank c = false :=
  not_of_mem_splitOnP (List.mem_filter.mp h).1

/-- Words are read back when they are set apart by single spaces. -/
theorem words_intercalate {ws : List (List Char)} (hnil : ∀ w ∈ ws, w ≠ [])
    (hblank : ∀ w ∈ ws, ∀ c ∈ w, isBlank c = false) : words (List.intercalate [' '] ws) = ws := by
  induction ws with
  | nil => rfl
  | cons w ws ih =>
    obtain ⟨hw, hws⟩ := List.forall_mem_cons.mp hnil
    obtain ⟨hwblank, hwsblank⟩ := List.forall_mem_cons.mp hblank
    cases ws with
    | nil => rw [List.intercalate_singleton, words_of_not_blank hw hwblank]
    | cons v ws =>
      have hspace : List.intercalate [' '] (w :: v :: ws) =
          w ++ ' ' :: List.intercalate [' '] (v :: ws) := by
        simp [List.intercalate]
      rw [hspace, words_append_blank (by decide), words_of_not_blank hw hwblank, ih hws hwsblank]
      rfl

/-- The collapsed form has the same words. -/
theorem words_collapse (cs : List Char) : words (collapse cs) = words cs :=
  words_intercalate (fun _ hw => ne_nil_of_mem_words hw) fun _ hw => not_blank_of_mem_words hw

/-- The collapsed form of a text stands for its words. -/
theorem collapse_eq_iff {cs ds : List Char} : collapse cs = collapse ds ↔ words cs = words ds := by
  constructor
  · intro h
    rw [← words_collapse cs, h, words_collapse]
  · intro h
    unfold collapse
    rw [h]

end LayoutGuard.Text
