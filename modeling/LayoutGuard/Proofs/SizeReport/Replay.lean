import Mathlib.Data.List.Basic
import LayoutGuard.Proofs.AssertionFile.Document
import LayoutGuard.Proofs.SizeReport.LastSize
import LayoutGuard.Proofs.SizeReport.Text

/-!
A recorded report stands in for the table that it was measured from. It lists the size
of every entry, repeated types with the same size each time, so the table that is read
from it answers for every registered type as the measured one does.
-/

namespace LayoutGuard

namespace SizeReport

variable {r : Registry} {t : SizeTable}

/-! Recording -/

def recorded (source : SizeSource) (b : Binding) : Entry :=
  ⟨b.spelling, b.odinName, (source b.ctype).getD 0⟩

/-- Measuring records every entry, or finds one without a size. -/
theorem measure_eq_ok_iff (source : SizeSource) (package : String) (compiler : Option String)
    (report : SizeReport) :
    measure r source package compiler = .ok report ↔
      AssertionFile.Sized r source ∧
        report = ⟨package, compiler, r.bindings.map (recorded source)⟩ := by
  have hrun (entries : List Entry) : r.bindings.mapM (entry source) = .ok entries ↔
      AssertionFile.Sized r source ∧ entries = r.bindings.map (recorded source) :=
    SizeSource.mapM_resolve_eq_ok_iff fun b n => (⟨b.spelling, b.odinName, n⟩ : Entry)
  simp only [measure, map_eq_ok_iff, hrun]
  constructor
  · rintro ⟨entries, ⟨hsized, rfl⟩, rfl⟩
    exact ⟨hsized, rfl⟩
  · rintro ⟨hsized, rfl⟩
    exact ⟨_, ⟨hsized, rfl⟩, rfl⟩

/-- Measuring fails with the fault of the first entry that has no usable size. -/
theorem measure_eq_error_iff {source : SizeSource} {package : String} {compiler : Option String}
    {f : Fault} : measure r source package compiler = .error f ↔ source.FirstRefused r f := by
  unfold measure
  rw [map_eq_error_iff]
  exact SizeSource.mapM_resolve_eq_error_iff fun b n => (⟨b.spelling, b.odinName, n⟩ : Entry)

/-! The table of a report -/

/-- Native spellings with single spaces between their words. -/
def Normalized (r : Registry) : Prop :=
  ∀ b ∈ r.bindings, CType.normalizeSpelling b.spelling = b.spelling

/-- Types whose names are C identifiers have spellings in normal form. -/
theorem normalized_of_isName
    (h : ∀ b ∈ r.bindings, Text.isName b.ctype.name.toList = true) : Normalized r :=
  fun b hb => CType.normalizeSpelling_of_isName (h b hb)

/-- The table of a report gives each entry the size that was measured. -/
theorem sizeOf?_table_measured {package : String} {compiler : Option String} {report : SizeReport}
    (hnormal : Normalized r) (h : measure r t.source package compiler = .ok report) {b : Binding}
    (hb : b ∈ r.bindings) : report.table.sizeOf? b.ctype = t.sizeOf? b.ctype := by
  obtain ⟨hsized, rfl⟩ := (measure_eq_ok_iff t.source package compiler report).mp h
  obtain ⟨n, _, hn⟩ := hsized b hb
  have hlisted : Text.words b.spelling.toList ∈
      (r.bindings.map (recorded t.source)).map Entry.words :=
    List.mem_map_of_mem (List.mem_map_of_mem hb)
  have hsize : ∀ e ∈ r.bindings.map (recorded t.source),
      e.words = Text.words b.spelling.toList → e.size = n := by
    intro e he hwords
    obtain ⟨c, hc, rfl⟩ := List.mem_map.mp he
    have hsame : c.spelling = b.spelling := by
      rw [← hnormal c hc, ← hnormal b hb]
      exact CType.normalizeSpelling_eq_iff.mpr hwords
    change (t.find? c.spelling).getD 0 = n
    change t.find? b.spelling = some n at hn
    rw [hsame, hn]
    rfl
  have hlast := getSpelling?_enterAll (r.bindings.map (recorded t.source)) b.spelling
  rw [SizeTable.getSpelling?, hnormal b hb, lastSize?_eq_some_of_forall hlisted hsize] at hlast
  exact hlast.trans hn.symm

end SizeReport

namespace AssertionFile

/-- A document depends on nothing but the sizes of the registered types. -/
theorem render_congr {r : Registry} {s u : SizeSource} (package : PackageName)
    (h : ∀ b ∈ r.bindings, s b.ctype = u b.ctype) : render package r s = render package r u := by
  have hassertion : ∀ b ∈ r.bindings, assertion s b = assertion u b := by
    intro b hb
    rw [assertion, assertion, SizeSource.resolve, SizeSource.resolve, h b hb]
  rw [render, render, mapM_congr hassertion]

end AssertionFile

end LayoutGuard
