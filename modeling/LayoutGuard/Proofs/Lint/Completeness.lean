import Mathlib.Data.List.Basic
import LayoutGuard.Lint
import LayoutGuard.Proofs.Text.Distinct

/-!
When an entry of a registry is reported as unknown to a header: its spelling is none of
those that designate the types of the header.
-/

namespace LayoutGuard.Lint

/-- An entry is reported as unknown exactly when no header type has its spelling. -/
theorem exists_unknownToHeader_iff {r : Registry} {types : List HeaderType} {spelling : String} :
    (∃ odinName, Finding.unknownToHeader spelling odinName ∈ completeness r types) ↔
      spelling ∈ r.spellings ∧ ∀ t ∈ types, spelling ∉ t.spellings := by
  have hmissing (odinName : String) :
      Finding.unknownToHeader spelling odinName ∉ missing r types := by
    simp [missing]
  have hkeep (b : Binding) : b ∈ (r.bindings.filter fun b =>
      !(types.flatMap HeaderType.spellings).contains b.spelling) ↔
        b ∈ r.bindings ∧ ∀ t ∈ types, b.spelling ∉ t.spellings := by
    simp [List.mem_filter]
  simp only [completeness, List.mem_append, hmissing, false_or, unknown, List.mem_map,
    Finding.unknownToHeader.injEq]
  constructor
  · rintro ⟨odinName, b, hb, rfl, rfl⟩
    obtain ⟨before, after, hsplit, -⟩ := Text.mem_distinctBy_iff.mp hb
    obtain ⟨hmem, hunknown⟩ := (hkeep b).mp (by rw [hsplit]; simp)
    exact ⟨List.mem_map_of_mem hmem, hunknown⟩
  · rintro ⟨hregistered, hunknown⟩
    obtain ⟨b, hb, rfl⟩ := List.mem_map.mp hregistered
    obtain ⟨c, hc, hsame⟩ := Text.exists_mem_distinctBy Binding.spelling
      ((hkeep b).mpr ⟨hb, hunknown⟩)
    exact ⟨c.odinName, c, hc, hsame, rfl⟩

end LayoutGuard.Lint
