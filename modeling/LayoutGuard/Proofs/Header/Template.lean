import LayoutGuard.Proofs.Header.Places

/-!
The templates that macros give. Each is for a struct or a union, and the pieces of its
name are made of the characters of the pasted name.
-/

namespace LayoutGuard.Header

structure Template.WellFormed (t : Template) : Prop where
  composite : ∃ k : Composite, t.kind = k.kind
  pasted : ∀ piece ∈ t.pieces, ∀ c ∈ piece, isPasteChar c = true

theorem mem_of_mem_splitPaste {cs piece : List Char} {c : Char} (hpiece : piece ∈ splitPaste cs)
    (hc : c ∈ piece) : c ∈ cs := by
  fun_induction splitPaste cs generalizing piece with
  | case1 =>
    rw [List.mem_singleton.mp hpiece] at hc
    exact hc
  | case2 cs ih =>
    rcases List.mem_cons.mp hpiece with rfl | hpiece
    · cases hc
    · exact List.mem_cons_of_mem _ (List.mem_cons_of_mem _ (ih hpiece hc))
  | case3 d cs _ _ ih =>
    rw [List.mem_singleton.mp hpiece] at hc
    rw [List.mem_singleton.mp hc]
    exact List.mem_cons_self
  | case4 d cs _ p ps hsplit ih =>
    rw [hsplit] at ih
    rcases List.mem_cons.mp hpiece with rfl | hpiece
    · rcases List.mem_cons.mp hc with rfl | hc
      · exact List.mem_cons_self
      · exact List.mem_cons_of_mem _ (ih List.mem_cons_self hc)
    · exact List.mem_cons_of_mem _ (ih (List.mem_cons_of_mem p hpiece) hc)

/-- A template is for a struct or a union, and its pieces are made of the characters of a pasted
name. -/
theorem wellFormed_of_template? {m : Macro} {t : Template} (h : m.template? = some t) :
    t.WellFormed := by
  obtain ⟨⟨kind, pieces⟩, hhead, rfl⟩ := Option.map_eq_some_iff.mp h
  obtain ⟨place, -, hplace⟩ := List.exists_of_findSome?_eq_some hhead
  simp only [pastedHead?, Option.bind_eq_bind, Option.bind_eq_some_iff] at hplace
  obtain ⟨-, -, ⟨found, cs⟩, hkeyword, _, -, -, -, -, -, _, -, heq⟩ := hplace
  cases heq
  obtain ⟨k, hk, -⟩ := exists_composite hkeyword
  exact ⟨⟨k, hk⟩, fun piece hpiece c hc =>
    List.mem_takeWhile_imp (mem_of_mem_splitPaste hpiece hc)⟩

theorem wellFormed_of_findTemplate? {ms : List Macro} {name : List Char} {t : Template}
    (h : findTemplate? ms name = some t) : t.WellFormed := by
  obtain ⟨_, _, hsplit, -⟩ := List.lookup_eq_some_iff.mp h
  have hmem : (name, t) ∈ ms.reverse.filterMap fun m => m.template?.map fun t => (m.name, t) := by
    rw [hsplit]
    exact List.mem_append_right _ List.mem_cons_self
  obtain ⟨m, -, hread⟩ := List.mem_filterMap.mp hmem
  obtain ⟨found, hfound, heq⟩ := Option.map_eq_some_iff.mp hread
  cases heq
  exact wellFormed_of_template? hfound

end LayoutGuard.Header
