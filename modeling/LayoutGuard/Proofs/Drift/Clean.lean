import Mathlib.Data.List.Basic
import LayoutGuard.Drift
import LayoutGuard.Proofs.AssertionFile.Document
import LayoutGuard.Proofs.Drift.Alignment

/-!
When a drift is clean. The walk reports nothing exactly for equal lists of lines, and
the comparison of the endings then tells apart all texts with these lines, unless both
hold carriage returns. A rendered document holds none, so it is clean against nothing
but itself.
-/

namespace LayoutGuard

namespace Edits

variable {α : Type} [DecidableEq α]

theorem walkFrom_self (i j : Nat) (as : List α) : walkFrom i j as as = ⟨[], []⟩ := by
  induction as generalizing i j with
  | nil => rw [walkFrom_nil_left, List.zipIdx_nil, List.map_nil]
  | cons a as ih => rw [walkFrom_same, ih]

theorem eq_of_walkFrom_eq_nil (i j : Nat) (old new : List α)
    (h : walkFrom i j old new = ⟨[], []⟩) : old = new := by
  induction old, new using commonLength.induct generalizing i j with
  | case1 new =>
    rw [walkFrom_nil_left] at h
    have hnil : new = [] := by simpa using h
    exact hnil.symm
  | case2 a old =>
    rw [walkFrom_nil_right] at h
    simp at h
  | case3 old a new ih =>
    rw [walkFrom_same] at h
    rw [ih (i + 1) (j + 1) h]
  | case4 a old b new hab ihOld ihNew =>
    rcases le_or_gt (commonLength (a :: old) new) (commonLength old (b :: new)) with hle | hlt
    · rw [walkFrom_remove i j hab hle] at h
      simp at h
    · rw [walkFrom_add i j hab hlt] at h
      simp at h

/-- Nothing is listed exactly when both lists are equal. -/
theorem walkFrom_eq_nil_iff (i j : Nat) (old new : List α) :
    walkFrom i j old new = ⟨[], []⟩ ↔ old = new := by
  constructor
  · exact eq_of_walkFrom_eq_nil i j old new
  · rintro rfl
    exact walkFrom_self i j old

end Edits

namespace Drift

/-- A drift is clean when the lines are the same and nothing is reported about their endings. -/
theorem isClean_compare_iff (committed regenerated : String) :
    (compare committed regenerated).isClean = true ↔
      Text.lines committed.toList = Text.lines regenerated.toList ∧
        compareEndings committed.toList regenerated.toList = none := by
  rw [← Edits.walkFrom_eq_nil_iff 1 1]
  simp only [isClean, compare, Bool.and_eq_true, List.isEmpty_iff, Option.isNone_iff_eq_none,
    List.map_eq_nil_iff]
  change _ ↔ Edits.between _ _ = _ ∧ _
  cases Edits.between (Text.lines committed.toList) (Text.lines regenerated.toList)
  simp

theorem isClean_compare_self (document : String) : (compare document document).isClean = true := by
  rw [isClean_compare_iff]
  exact ⟨rfl, if_pos rfl⟩

/-- Only carriage returns anywhere and the last character are looked at. -/
theorem compareEndings_eq_none_iff (cs ds : List Char) :
    compareEndings cs ds = none ↔ cs = ds ∨
      (('\r' ∈ cs ↔ '\r' ∈ ds) ∧ (cs.getLast? = some '\n' ↔ ds.getLast? = some '\n')) := by
  rw [compareEndings]
  by_cases heq : cs = ds
  · simp [heq]
  · by_cases hreturns : '\r' ∈ cs ↔ '\r' ∈ ds
    · by_cases hends : cs.getLast? = some '\n' ↔ ds.getLast? = some '\n'
      · simp [heq, hreturns, hends]
      · simp [heq, hreturns, hends]
    · simp [heq, hreturns]

/-- What a clean drift tells about two texts: they agree but for carriage returns before
line feeds, and both or neither hold carriage returns. -/
theorem isClean_compare_iff_plainEndings (committed regenerated : String) :
    (compare committed regenerated).isClean = true ↔
      ('\r' ∈ committed.toList ↔ '\r' ∈ regenerated.toList) ∧
        Text.plainEndings committed.toList = Text.plainEndings regenerated.toList := by
  rw [isClean_compare_iff, compareEndings_eq_none_iff, ← Text.lines_eq_iff_plainEndings]
  constructor
  · rintro ⟨hlines, heq | ⟨hreturns, hends⟩⟩
    · rw [heq]
      exact ⟨Iff.rfl, rfl, Iff.rfl⟩
    · exact ⟨hreturns, hlines, hends⟩
  · rintro ⟨hreturns, hlines, hends⟩
    exact ⟨hlines, Or.inr ⟨hreturns, hends⟩⟩

/-- Against a text without carriage returns a clean drift means equality. -/
theorem eq_of_isClean {committed regenerated : String} (hreturn : '\r' ∉ regenerated.toList)
    (h : (compare committed regenerated).isClean = true) : committed = regenerated := by
  obtain ⟨hreturns, hplain⟩ := (isClean_compare_iff_plainEndings committed regenerated).mp h
  rw [Text.plainEndings_of_no_return (fun hmem => hreturn (hreturns.mp hmem)),
    Text.plainEndings_of_no_return hreturn] at hplain
  exact String.toList_inj.mp hplain

/-- A clean drift means equal texts, except between two texts that both hold carriage
returns and differ in nothing but carriage returns before line feeds. Of two different
texts with the same lines, these are the only ones whose endings are not told apart. -/
theorem isClean_iff_eq_or_returns (committed regenerated : String) :
    ((compare committed regenerated).isClean = true ↔
      committed = regenerated ∨
        ('\r' ∈ committed.toList ∧ '\r' ∈ regenerated.toList ∧
          Text.plainEndings committed.toList = Text.plainEndings regenerated.toList)) ∧
    (Text.lines committed.toList = Text.lines regenerated.toList → committed ≠ regenerated →
      ((compare committed regenerated).endings = none ↔
        '\r' ∈ committed.toList ∧ '\r' ∈ regenerated.toList ∧
          Text.plainEndings committed.toList = Text.plainEndings regenerated.toList)) := by
  have hclean : (compare committed regenerated).isClean = true ↔
      committed = regenerated ∨
        ('\r' ∈ committed.toList ∧ '\r' ∈ regenerated.toList ∧
          Text.plainEndings committed.toList = Text.plainEndings regenerated.toList) := by
    constructor
    · intro h
      obtain ⟨hreturns, hplain⟩ := (isClean_compare_iff_plainEndings _ _).mp h
      by_cases hreturn : '\r' ∈ regenerated.toList
      · exact Or.inr ⟨hreturns.mpr hreturn, hreturn, hplain⟩
      · exact Or.inl (eq_of_isClean hreturn h)
    · rintro (rfl | ⟨hleft, hright, hplain⟩)
      · exact isClean_compare_self committed
      · exact (isClean_compare_iff_plainEndings _ _).mpr ⟨iff_of_true hleft hright, hplain⟩
  refine ⟨hclean, ?_⟩
  intro hlines hne
  rw [isClean_compare_iff, and_iff_right hlines, or_iff_right hne] at hclean
  exact hclean

/-- Carriage returns on different lines, which no record of the drift shows. -/
theorem mixed_endings_have_same_lines :
    Text.lines "a\r\nb\n".toList = Text.lines "a\nb\r\n".toList ∧
      "a\r\nb\n" ≠ "a\nb\r\n" ∧ (compare "a\r\nb\n" "a\nb\r\n").endings = none := by
  have hlines : Text.lines "a\r\nb\n".toList = Text.lines "a\nb\r\n".toList := by decide
  have hne : "a\r\nb\n" ≠ "a\nb\r\n" := by decide
  exact ⟨hlines, hne, ((isClean_iff_eq_or_returns _ _).2 hlines hne).mpr (by decide)⟩

/-- Two different texts, each with one carriage return, are found clean. -/
theorem not_isClean_iff_eq :
    ¬((compare "a\r\nb\n" "a\nb\r\n").isClean = true ↔ "a\r\nb\n" = "a\nb\r\n") := by
  have hclean : (compare "a\r\nb\n" "a\nb\r\n").isClean = true :=
    (isClean_compare_iff_plainEndings _ _).mpr (by decide)
  rw [iff_true_left hclean]
  decide

/-- Only a document itself is found clean against it. -/
theorem isClean_document_iff {package : PackageName} {r : Registry} {source : SizeSource}
    {document : String} (hnames : ∀ b ∈ r.bindings, Odin.isIdentifier b.odinName = true)
    (hdocument : AssertionFile.render package r source = .ok document) (committed : String) :
    (compare committed document).isClean = true ↔ committed = document := by
  obtain ⟨-, rfl⟩ := (AssertionFile.render_eq_ok_iff package r source document).mp hdocument
  constructor
  · apply eq_of_isClean
    apply AssertionFile.no_return_format
    intro a ha
    obtain ⟨b, hb, rfl⟩ := List.mem_map.mp ha
    exact hnames b hb
  · rintro rfl
    exact isClean_compare_self _

end Drift

end LayoutGuard
