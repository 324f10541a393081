import Mathlib.Data.List.Basic
import LayoutGuard.AssertionFile
import LayoutGuard.Proofs.Odin
import LayoutGuard.Proofs.SizeSource
import LayoutGuard.Proofs.Text.Lines

/-!
The lines of a rendered assertion file. Rendering succeeds exactly when every
registered type has a size other than zero. Where the Odin names are identifiers
the text holds no carriage return, ends its last line and reads back as the clause,
an empty line and the assertions.
-/

namespace LayoutGuard

theorem PackageName.ofString_eq_ok_iff {text : String} {name : PackageName} :
    PackageName.ofString text = .ok name ↔ text = name.text := by
  rw [PackageName.ofString]
  constructor
  · intro h
    split at h
    · cases h
      rfl
    · cases h
  · rintro rfl
    exact dif_pos name.valid

namespace AssertionFile

def stated (source : SizeSource) (b : Binding) : Odin.SizeAssertion :=
  ⟨b.odinName, (source b.ctype).getD 0⟩

/-- Every registered type has a size other than zero. -/
def Sized (r : Registry) (source : SizeSource) : Prop :=
  ∀ b ∈ r.bindings, ∃ n, n ≠ 0 ∧ source b.ctype = some n

/-- Rendering succeeds exactly when every entry has a size, and then there is one text. -/
theorem render_eq_ok_iff (package : PackageName) (r : Registry) (source : SizeSource)
    (document : String) :
    render package r source = .ok document ↔
      Sized r source ∧ document = format package (r.bindings.map (stated source)) := by
  have hrun (as : List Odin.SizeAssertion) : r.bindings.mapM (assertion source) = .ok as ↔
      Sized r source ∧ as = r.bindings.map (stated source) :=
    SizeSource.mapM_resolve_eq_ok_iff fun b n => (⟨b.odinName, n⟩ : Odin.SizeAssertion)
  simp only [render, map_eq_ok_iff, hrun]
  constructor
  · rintro ⟨as, ⟨hsized, rfl⟩, rfl⟩
    exact ⟨hsized, rfl⟩
  · rintro ⟨hsized, rfl⟩
    exact ⟨_, ⟨hsized, rfl⟩, rfl⟩

/-- Rendering fails with the fault of the first entry in registry order that has no usable size.
-/
theorem render_eq_error_iff {package : PackageName} {r : Registry} {source : SizeSource}
    {f : Fault} : render package r source = .error f ↔ source.FirstRefused r f := by
  unfold render
  rw [map_eq_error_iff]
  exact SizeSource.mapM_resolve_eq_error_iff fun b n => (⟨b.odinName, n⟩ : Odin.SizeAssertion)

/-! The lines of a document -/

def documentLines (package : PackageName) (as : List Odin.SizeAssertion) : List (List Char) :=
  (Odin.packageClause package.text).toList :: [] :: as.map fun a => a.text.toList

theorem toList_format (package : PackageName) (as : List Odin.SizeAssertion) :
    (format package as).toList = Text.unlines (documentLines package as) := by
  simp [format, documentLines, String.toList_join, Text.unlines, List.flatMap_map]

/-- A character that ends no line. -/
def Inline (c : Char) : Prop :=
  c ≠ '\n' ∧ c ≠ '\r'

theorem isLine_of_inline {l : List Char} (h : ∀ c ∈ l, Inline c) : Text.IsLine l where
  no_feed hmem := (h _ hmem).1 rfl
  no_return hlast := (h _ (List.mem_of_getLast? hlast)).2 rfl

theorem inline_of_isNameRest {c : Char} (h : Text.isNameRest c = true) : Inline c := by
  constructor
  · rintro rfl
    revert h
    decide
  · rintro rfl
    revert h
    decide

theorem inline_of_isDigit {c : Char} (h : Text.isDigit c = true) : Inline c :=
  inline_of_isNameRest (by simp [Text.isNameRest, h])

theorem inline_packageClause (package : PackageName) :
    ∀ c ∈ (Odin.packageClause package.text).toList, Inline c := by
  intro c hc
  rw [Odin.packageClause, String.toList_append, List.mem_append] at hc
  rcases hc with hc | hc
  · revert c
    simp [Inline]
  · exact inline_of_isNameRest (Odin.isNameRest_of_mem package.valid hc)

theorem inline_assertion {a : Odin.SizeAssertion} (ha : Odin.isIdentifier a.name = true) :
    ∀ c ∈ a.text.toList, Inline c := by
  intro c hc
  simp only [Odin.SizeAssertion.toList_text, List.mem_append] at hc
  rcases hc with hc | hc | hc | hc | hc
  · revert c
    simp [Inline]
  · exact inline_of_isNameRest (Odin.isNameRest_of_mem ha hc)
  · revert c
    simp [Inline]
  · exact inline_of_isDigit (Text.Decimal.isDigit_of_mem_render hc)
  · revert c
    simp [Inline]

/-- Nothing within the lines of a document ends a line. -/
theorem inline_documentLines {package : PackageName} {as : List Odin.SizeAssertion}
    (has : ∀ a ∈ as, Odin.isIdentifier a.name = true) :
    ∀ l ∈ documentLines package as, ∀ c ∈ l, Inline c := by
  intro l hl
  simp only [documentLines, List.mem_cons, List.mem_map] at hl
  rcases hl with rfl | rfl | ⟨a, ha, rfl⟩
  · exact inline_packageClause package
  · simp
  · exact inline_assertion (has a ha)

/-- No package clause and no assertion spans lines, so the lines are those that were put in. -/
theorem lines_format {package : PackageName} {as : List Odin.SizeAssertion}
    (has : ∀ a ∈ as, Odin.isIdentifier a.name = true) :
    Text.lines (format package as).toList = documentLines package as := by
  rw [toList_format]
  exact Text.lines_unlines fun l hl => isLine_of_inline (inline_documentLines has l hl)

/-- A rendered file never has a carriage return in it. -/
theorem no_return_format {package : PackageName} {as : List Odin.SizeAssertion}
    (has : ∀ a ∈ as, Odin.isIdentifier a.name = true) :
    '\r' ∉ (format package as).toList := by
  rw [toList_format, Text.mem_unlines (by decide)]
  rintro ⟨l, hl, hmem⟩
  exact (inline_documentLines has l hl _ hmem).2 rfl

theorem no_feed_packageClause (package : PackageName) :
    '\n' ∉ (Odin.packageClause package.text).toList :=
  fun hfeed => (inline_packageClause package _ hfeed).1 rfl

theorem no_feed_assertion {a : Odin.SizeAssertion} (ha : '\n' ∉ a.name.toList) :
    '\n' ∉ a.text.toList := by
  have hdigits : '\n' ∉ Text.Decimal.render a.size.toNat := fun hfeed =>
    (inline_of_isDigit (Text.Decimal.isDigit_of_mem_render hfeed)).1 rfl
  simp only [Odin.SizeAssertion.toList_text, List.mem_append, not_or]
  exact ⟨by decide, ha, by decide, hdigits, by decide⟩

/-- Cut at its line feeds a document gives its lines, whatever else the Odin names hold. -/
theorem splitOn_format_of_no_feed {package : PackageName} {as : List Odin.SizeAssertion}
    (has : ∀ a ∈ as, '\n' ∉ a.name.toList) :
    (format package as).toList.splitOn '\n' = documentLines package as ++ [[]] := by
  rw [toList_format]
  apply Text.splitOn_unlines
  intro l hl
  simp only [documentLines, List.mem_cons, List.mem_map] at hl
  rcases hl with rfl | rfl | ⟨a, ha, rfl⟩
  · exact no_feed_packageClause package
  · simp
  · exact no_feed_assertion (has a ha)

/-- A rendered file ends in a line feed, also without assertions. -/
theorem getLast?_format (package : PackageName) (as : List Odin.SizeAssertion) :
    (format package as).toList.getLast? = some '\n' := by
  rw [toList_format]
  exact Text.getLast?_unlines (by simp [documentLines])

end AssertionFile

end LayoutGuard
