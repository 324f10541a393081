import LayoutGuard.Proofs.SizeReport.Replay

/-!
A rendered document and a measured report resolve the same sizes. Both stop at the first
entry whose type has no size or the size zero, with the fault of that entry, and nothing is
left of the entries before it. If there is no such entry, the document and the report give
every entry its Odin name and the size that is known for its type. The list of assertions
alone goes on behind a fault.
-/

namespace LayoutGuard.SizeReport

open AssertionFile

variable {r : Registry} {source : SizeSource} {package : PackageName} {name : String}
  {compiler : Option String}

/-- What stands in the list of assertions for an entry: its assertion or its fault. -/
inductive Answers (source : SizeSource) (b : Binding) : Except Fault Odin.SizeAssertion → Prop
  | sized {n : UInt64} (hn : n ≠ 0) (h : source b.ctype = some n) :
      Answers source b (.ok ⟨b.odinName, n⟩)
  | refused {f : Fault} (h : source.Refuses b f) : Answers source b (.error f)

/-- A document with its assertions and the entries of a report, which give every registry
entry the same Odin name and the same size. -/
structure Agree (package : PackageName) (r : Registry) (source : SizeSource)
    (document : String) (as : List Odin.SizeAssertion) (entries : List Entry) : Prop where
  text : document = format package as
  lines : (∀ b ∈ r.bindings, '\n' ∉ b.odinName.toList) →
    document.toList.splitOn '\n' = documentLines package as ++ [[]]
  length_assertions : as.length = r.size
  length_entries : entries.length = r.size
  sizes : ∀ (i : Nat) (b : Binding), r.bindings[i]? = some b →
    ∃ n, n ≠ 0 ∧ source b.ctype = some n ∧ as[i]? = some ⟨b.odinName, n⟩ ∧
      entries[i]? = some ⟨b.spelling, b.odinName, n⟩

/-! One entry -/

theorem answers_assertion (source : SizeSource) (b : Binding) :
    Answers source b (assertion source b) := by
  unfold assertion
  cases hresolve : source.resolve b with
  | error f => exact .refused (SizeSource.resolve_eq_error_iff.mp hresolve)
  | ok n =>
    obtain ⟨hn, hsize⟩ := SizeSource.resolve_eq_ok_iff.mp hresolve
    exact .sized hn hsize

/-- With sizes for all entries, the file and the report state the same ones. -/
theorem agree_of_sized (h : Sized r source) :
    Agree package r source (format package (r.bindings.map (stated source)))
      (r.bindings.map (stated source)) (r.bindings.map (recorded source)) where
  text := rfl
  lines hnames := by
    apply splitOn_format_of_no_feed
    intro a ha
    obtain ⟨b, hb, rfl⟩ := List.mem_map.mp ha
    exact hnames b hb
  length_assertions := List.length_map _
  length_entries := List.length_map _
  sizes i b hb := by
    obtain ⟨n, hn, hsize⟩ := h b (List.mem_of_getElem? hb)
    refine ⟨n, hn, hsize, ?_, ?_⟩
    · simp [hb, stated, hsize]
    · simp [hb, recorded, hsize]

/-- The assertions list one item for each entry, in registry order and also behind a fault.
Rendering and measuring fail exactly when some entry has no usable size, both with the fault
of the first such entry. Otherwise they give a document and a report that agree. -/
theorem render_agrees_with_measure (package : PackageName) (r : Registry) (source : SizeSource)
    (name : String) (compiler : Option String) :
    List.Forall₂ (Answers source) r.bindings (assertions r source) ∧
    ((∃ f, render package r source = .error f) ↔ ∃ b ∈ r.bindings, source.Lacks b) ∧
    ((∃ f, measure r source name compiler = .error f) ↔ ∃ b ∈ r.bindings, source.Lacks b) ∧
    (∀ f, render package r source = .error f ↔ source.FirstRefused r f) ∧
    (∀ f, measure r source name compiler = .error f ↔ source.FirstRefused r f) ∧
    ((∀ b ∈ r.bindings, ¬source.Lacks b) → ∃ document as entries,
      render package r source = .ok document ∧
      measure r source name compiler = .ok ⟨name, compiler, entries⟩ ∧
      Agree package r source document as entries) := by
  refine ⟨?_, ?_, ?_, fun f => render_eq_error_iff, fun f => measure_eq_error_iff, ?_⟩
  · unfold assertions
    rw [List.forall₂_map_right_iff, List.forall₂_same]
    exact fun b _ => answers_assertion source b
  · simp only [render_eq_error_iff, SizeSource.exists_firstRefused_iff]
  · simp only [measure_eq_error_iff, SizeSource.exists_firstRefused_iff]
  · intro hsized
    simp only [SizeSource.not_lacks_iff] at hsized
    exact ⟨_, _, _, (render_eq_ok_iff package r source _).mpr ⟨hsized, rfl⟩,
      (measure_eq_ok_iff source name compiler _).mpr ⟨hsized, rfl⟩, agree_of_sized hsized⟩

/-! A type that is listed twice, and a union whose size may be missing -/

def menuTypes : Registry :=
  ⟨[⟨⟨.struct, "menu_item"⟩, "Menu_Item"⟩, ⟨⟨.union, "menu_data"⟩, "Menu_Data"⟩,
    ⟨⟨.struct, "menu_item"⟩, "Menu_Entry"⟩]⟩

def menuSizes (ofUnion : Option UInt64) : SizeSource := fun t =>
  if t.kind = .union then ofUnion else some 24

def menuPackage : PackageName :=
  ⟨"menu", by decide⟩

def menuFault : Fault :=
  .unresolvable "union menu_data" "Menu_Data" .empty

theorem firstRefused_menuTypes : (menuSizes (some 0)).FirstRefused menuTypes menuFault := by
  refine ⟨[⟨⟨.struct, "menu_item"⟩, "Menu_Item"⟩], ⟨⟨.union, "menu_data"⟩, "Menu_Data"⟩,
    [⟨⟨.struct, "menu_item"⟩, "Menu_Entry"⟩], rfl, .empty rfl, ?_⟩
  simp [SizeSource.Lacks, menuSizes]

/-- With a size for the union both succeed; with the size zero both name the union. -/
theorem menuTypes_measured_and_rendered :
    (∀ b ∈ menuTypes.bindings, ¬(menuSizes (some 8)).Lacks b) ∧
      (∃ (document : String) (as : List Odin.SizeAssertion) (entries : List Entry),
        render menuPackage menuTypes (menuSizes (some 8)) = .ok document ∧
        measure menuTypes (menuSizes (some 8)) "menu" none = .ok ⟨"menu", none, entries⟩ ∧
        as[2]? = some ⟨"Menu_Entry", 24⟩ ∧
        entries[2]? = some ⟨"struct menu_item", "Menu_Entry", 24⟩) ∧
      render menuPackage menuTypes (menuSizes (some 0)) = .error menuFault ∧
      measure menuTypes (menuSizes (some 0)) "menu" none = .error menuFault := by
  have hsized : ∀ b ∈ menuTypes.bindings, ¬(menuSizes (some 8)).Lacks b := by
    simp [menuTypes, SizeSource.Lacks, menuSizes]
  obtain ⟨-, -, -, -, -, hagree⟩ :=
    render_agrees_with_measure menuPackage menuTypes (menuSizes (some 8)) "menu" none
  obtain ⟨-, -, -, hrender, hmeasure, -⟩ :=
    render_agrees_with_measure menuPackage menuTypes (menuSizes (some 0)) "menu" none
  refine ⟨hsized, ?_, (hrender _).mpr firstRefused_menuTypes,
    (hmeasure _).mpr firstRefused_menuTypes⟩
  obtain ⟨document, as, entries, hdocument, hreport, h⟩ := hagree hsized
  obtain ⟨n, -, hn, hassertion, hentry⟩ := h.sizes 2 _ rfl
  obtain rfl : 24 = n := Option.some.inj hn
  exact ⟨document, as, entries, hdocument, hreport, hassertion, hentry⟩

end LayoutGuard.SizeReport
