import Mathlib.Data.List.Basic
import LayoutGuard.Lint
import LayoutGuard.Proofs.Text.Distinct

/-!
What the absence of findings says about a registry. Without a finding about an
invalid name all Odin names are identifiers, and without one about a shared name
an Odin name stands for a single C spelling.
-/

namespace LayoutGuard.Lint

variable {r : Registry}

theorem isIdentifier_of_no_invalid (h : ∀ s n, Finding.invalidForeignName s n ∉ registry r) :
    ∀ b ∈ r.bindings, Odin.isIdentifier b.odinName = true := by
  intro b hb
  by_contra hid
  apply h b.spelling b.odinName
  simp only [registry, List.mem_append]
  refine Or.inl (Or.inl ?_)
  exact List.mem_map.mpr ⟨b, List.mem_filter.mpr ⟨hb, by simpa using hid⟩, rfl⟩

theorem mem_boundTo {b : Binding} (hb : b ∈ r.bindings) :
    b.spelling ∈ boundTo r b.odinName :=
  Text.mem_distinctBy_id (List.mem_map_of_mem (List.mem_filter.mpr ⟨hb, by simp⟩))

/-- When no name is reported as shared, the name tells the type. -/
theorem spelling_eq_of_no_shared (h : ∀ n ss, Finding.duplicateForeign n ss ∉ registry r)
    {b c : Binding} (hb : b ∈ r.bindings) (hc : c ∈ r.bindings) (hname : b.odinName = c.odinName) :
    b.spelling = c.spelling := by
  by_contra hne
  apply h b.odinName (boundTo r b.odinName)
  simp only [registry, List.mem_append]
  refine Or.inr (List.mem_filterMap.mpr ⟨b.odinName, ?_, ?_⟩)
  · exact Text.mem_distinctBy_id (List.mem_map_of_mem hb)
  · have hmem : b.spelling ∈ boundTo r b.odinName := mem_boundTo hb
    have hmem' : c.spelling ∈ boundTo r b.odinName := hname ▸ mem_boundTo hc
    have hlen : 1 < (boundTo r b.odinName).length := by
      match hl : boundTo r b.odinName with
      | [] => simp [hl] at hmem
      | [s] =>
        rw [hl, List.mem_singleton] at hmem hmem'
        exact absurd (hmem.trans hmem'.symm) hne
      | _ :: _ :: _ => simp
    rw [if_pos hlen]

end LayoutGuard.Lint
