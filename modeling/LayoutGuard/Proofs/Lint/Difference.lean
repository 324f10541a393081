import LayoutGuard.Proofs.Lint.Completeness
import LayoutGuard.Proofs.Lint.Defects

/-!
The findings of a comparison between a registry and a header are the difference of the two
in both directions. A header type is missing when none of its spellings is registered, and
a registered spelling is unknown when it is a spelling of no header type. A registry that
follows the findings, without the unknown entries and with an entry for each missing type,
agrees with the header: the entries that go away have spellings of no header type, so no
type loses its entry, and the entries that are new have spellings of header types.
-/

namespace LayoutGuard

def Finding.missing? : Finding → Option String
  | missingFromRegistry spelling => some spelling
  | _ => none

def Finding.unknown? : Finding → Option String
  | unknownToHeader spelling _ => some spelling
  | _ => none

theorem Finding.missing?_eq_some_iff {f : Finding} {spelling : String} :
    f.missing? = some spelling ↔ f = .missingFromRegistry spelling := by
  cases f <;> simp [missing?]

theorem Finding.unknown?_eq_some_iff {f : Finding} {spelling : String} :
    f.unknown? = some spelling ↔ ∃ odinName, f = .unknownToHeader spelling odinName := by
  cases f <;> simp [unknown?]

namespace Lint

variable {r r' : Registry} {types : List HeaderType}

/-- A header type that the registry lists under none of its spellings. -/
def Unregistered (r : Registry) (t : HeaderType) : Prop :=
  ∀ spelling ∈ t.spellings, spelling ∉ r.spellings

def Undefined (types : List HeaderType) (spelling : String) : Prop :=
  ∀ t ∈ types, spelling ∉ t.spellings

/-- A registry is another one without all entries that are reported as unknown and with one
more entry for each header type that is reported as missing. -/
def Follows (findings : List Finding) (r r' : Registry) : Prop :=
  ∃ added : List Binding,
    (added.map Binding.spelling).Perm (findings.filterMap Finding.missing?) ∧
    r'.bindings.Perm
      ((r.bindings.filter fun b => b.spelling ∉ findings.filterMap Finding.unknown?) ++ added)

/-! The difference -/

/-- Each header type that is listed nowhere is reported where it stands. -/
theorem byPosition_missing (r : Registry) (types : List HeaderType) :
    ByPosition
      (fun i f => ∃ t, types[i]? = some t ∧ Unregistered r t ∧ f = .missingFromRegistry t.spelling)
      (missing r types) := by
  refine (((byPosition_getElem? types).filter _).map _).congr fun i f => ?_
  constructor
  · rintro ⟨t, ⟨ht, hnone⟩, rfl⟩
    exact ⟨t, ht, by simpa [Unregistered] using hnone, rfl⟩
  · rintro ⟨t, ht, hnone, rfl⟩
    exact ⟨t, ⟨ht, by simpa [Unregistered] using hnone⟩, rfl⟩

/-- Each type without a definition is reported where it is listed first. -/
theorem byPosition_unknown (r : Registry) (types : List HeaderType) :
    ByPosition
      (fun i f => ∃ b, r.bindings[i]? = some b ∧ FirstAt r.spellings i b.spelling ∧
        Undefined types b.spelling ∧ f = .unknownToHeader b.spelling b.odinName)
      (unknown r types) := by
  have hundefined (b : Binding) :
      (!(types.flatMap HeaderType.spellings).contains b.spelling) = true ↔
        Undefined types b.spelling := by
    simp [Undefined]
  refine ((((byPosition_getElem? r.bindings).filter _).distinctBy Binding.spelling).map _).congr
    fun i f => ?_
  simp only [hundefined]
  constructor
  · rintro ⟨b, ⟨⟨hb, hnone⟩, hfirst⟩, rfl⟩
    refine ⟨b, hb, ⟨spellings_getElem?_eq_some_iff.mpr ⟨b, hb, rfl⟩, ?_⟩, hnone, rfl⟩
    intro j hj hsame
    obtain ⟨c, hc, hcb⟩ := spellings_getElem?_eq_some_iff.mp hsame
    exact hfirst j hj c ⟨hc, hcb ▸ hnone⟩ hcb
  · rintro ⟨b, hb, hfirst, hnone, rfl⟩
    refine ⟨b, ⟨⟨hb, hnone⟩, ?_⟩, rfl⟩
    intro j hj c hc hcb
    exact hfirst.2 j hj (spellings_getElem?_eq_some_iff.mpr ⟨c, hc.1, hcb⟩)

/-! Following the findings -/

theorem mem_missing?_iff {spelling : String} :
    spelling ∈ (completeness r types).filterMap Finding.missing? ↔
      ∃ t ∈ types, Unregistered r t ∧ t.spelling = spelling := by
  have hunknown : Finding.missingFromRegistry spelling ∉ unknown r types := by
    simp [unknown]
  simp only [List.mem_filterMap, Finding.missing?_eq_some_iff, exists_eq_right, completeness,
    List.mem_append, or_iff_left hunknown, (byPosition_missing r types).mem_iff,
    Finding.missingFromRegistry.injEq]
  constructor
  · rintro ⟨i, t, ht, hnone, hsame⟩
    exact ⟨t, List.mem_of_getElem? ht, hnone, hsame.symm⟩
  · rintro ⟨t, ht, hnone, hsame⟩
    obtain ⟨i, hi⟩ := List.mem_iff_getElem?.mp ht
    exact ⟨i, t, hi, hnone, hsame.symm⟩

theorem mem_unknown?_iff {spelling : String} :
    spelling ∈ (completeness r types).filterMap Finding.unknown? ↔
      spelling ∈ r.spellings ∧ Undefined types spelling := by
  rw [Undefined, ← exists_unknownToHeader_iff, List.mem_filterMap]
  simp only [Finding.unknown?_eq_some_iff]
  constructor
  · rintro ⟨f, hf, odinName, rfl⟩
    exact ⟨odinName, hf⟩
  · rintro ⟨odinName, hf⟩
    exact ⟨_, hf, odinName, rfl⟩

/-- The new registry has the old spellings without the unknown ones, and the missing ones. -/
theorem Follows.mem_spellings_iff {findings : List Finding} (h : Follows findings r r')
    {spelling : String} :
    spelling ∈ r'.spellings ↔
      (spelling ∈ r.spellings ∧ spelling ∉ findings.filterMap Finding.unknown?) ∨
        spelling ∈ findings.filterMap Finding.missing? := by
  obtain ⟨added, hadded, hbindings⟩ := h
  rw [Registry.spellings, (hbindings.map Binding.spelling).mem_iff, List.map_append,
    List.mem_append, hadded.mem_iff]
  refine or_congr_left ?_
  simp only [Registry.spellings, List.mem_map, List.mem_filter, decide_eq_true_iff]
  constructor
  · rintro ⟨b, ⟨hb, hkept⟩, rfl⟩
    exact ⟨⟨b, hb, rfl⟩, hkept⟩
  · rintro ⟨⟨b, hb, rfl⟩, hkept⟩
    exact ⟨b, ⟨hb, hkept⟩, rfl⟩

/-- Registry and header agree when every header type has a registered spelling and every
registered spelling is one of a header type. -/
theorem completeness_eq_nil_iff :
    completeness r types = [] ↔
      (∀ t ∈ types, ¬Unregistered r t) ∧ ∀ spelling ∈ r.spellings, ¬Undefined types spelling := by
  rw [completeness, List.append_eq_nil_iff, (byPosition_missing r types).eq_nil_iff,
    (byPosition_unknown r types).eq_nil_iff]
  refine and_congr ?_ ?_
  · constructor
    · intro hnone t ht hmissing
      obtain ⟨i, hi⟩ := List.mem_iff_getElem?.mp ht
      exact hnone i _ ⟨t, hi, hmissing, rfl⟩
    · rintro hall i f ⟨t, ht, hmissing, -⟩
      exact hall t (List.mem_of_getElem? ht) hmissing
  · constructor
    · intro hnone spelling hmem hundefined
      obtain ⟨j, hj⟩ := List.mem_iff_getElem?.mp hmem
      obtain ⟨i, -, hi⟩ := exists_firstAt hj
      obtain ⟨b, hb, rfl⟩ := spellings_getElem?_eq_some_iff.mp hi.1
      exact hnone i _ ⟨b, hb, hi, hundefined, rfl⟩
    · rintro hall i f ⟨b, hb, -, hundefined, -⟩
      exact hall b.spelling (List.mem_map_of_mem (List.mem_of_getElem? hb)) hundefined

/-- A registry that follows the findings has none left. -/
theorem completeness_eq_nil_of_follows (h : Follows (completeness r types) r r') :
    completeness r' types = [] := by
  refine completeness_eq_nil_iff.mpr ⟨?_, ?_⟩
  · intro t ht hnone
    -- The entry of a type stays, since it is not unknown.
    have hmissing : Unregistered r t := by
      intro spelling hspelling hregistered
      refine hnone spelling hspelling (h.mem_spellings_iff.mpr (Or.inl ⟨hregistered, ?_⟩))
      intro hunknown
      exact (mem_unknown?_iff.mp hunknown).2 t ht hspelling
    refine hnone t.spelling List.mem_cons_self (h.mem_spellings_iff.mpr (Or.inr ?_))
    exact mem_missing?_iff.mpr ⟨t, ht, hmissing, rfl⟩
  · intro spelling hspelling hundefined
    rcases h.mem_spellings_iff.mp hspelling with ⟨hregistered, hkept⟩ | hadded
    · exact hkept (mem_unknown?_iff.mpr ⟨hregistered, hundefined⟩)
    · obtain ⟨t, ht, -, rfl⟩ := mem_missing?_iff.mp hadded
      exact hundefined t ht List.mem_cons_self

/-- The findings are the difference between registry and header, first the missing types and
then the unknown spellings, and following them leaves nothing to find. -/
theorem completeness_reports_difference (r : Registry) (types : List HeaderType) :
    (∃ missing unknown : List Finding,
      completeness r types = missing ++ unknown ∧
      ByPosition
        (fun i f => ∃ t, types[i]? = some t ∧ Unregistered r t ∧
          f = .missingFromRegistry t.spelling)
        missing ∧
      ByPosition
        (fun i f => ∃ b, r.bindings[i]? = some b ∧ FirstAt r.spellings i b.spelling ∧
          Undefined types b.spelling ∧ f = .unknownToHeader b.spelling b.odinName)
        unknown) ∧
    ∀ r', Follows (completeness r types) r r' → completeness r' types = [] := by
  refine ⟨?_, fun r' h => completeness_eq_nil_of_follows h⟩
  exact ⟨missing r types, unknown r types, rfl, byPosition_missing r types,
    byPosition_unknown r types⟩

/-- A registry that lists one type under a tag, one that went away twice, and a color. -/
def olderRegistry : Registry :=
  ⟨[⟨⟨.struct, "nk_panel_tag"⟩, "Panel"⟩, ⟨⟨.struct, "nk_style"⟩, "Style"⟩,
    ⟨⟨.typedef, "nk_color"⟩, "Color"⟩, ⟨⟨.struct, "nk_style"⟩, "Old_Style"⟩]⟩

/-- A header with a tagged typedef, a type that is new twice and a color. -/
def newerTypes : List HeaderType :=
  [⟨⟨.typedef, "nk_panel"⟩, some "struct nk_panel_tag"⟩, ⟨⟨.union, "nk_page"⟩, none⟩,
    ⟨⟨.typedef, "nk_color"⟩, none⟩, ⟨⟨.typedef, "nk_image"⟩, some "struct nk_image_tag"⟩]

def newerRegistry : Registry :=
  ⟨[⟨⟨.typedef, "nk_image"⟩, "Image"⟩, ⟨⟨.struct, "nk_panel_tag"⟩, "Panel"⟩,
    ⟨⟨.typedef, "nk_color"⟩, "Color"⟩, ⟨⟨.union, "nk_page"⟩, "Page"⟩]⟩

/-- A repeated type is reported once, and a tag that is listed counts for its typedef. -/
theorem completeness_newerRegistry :
    completeness olderRegistry newerTypes =
        [.missingFromRegistry "union nk_page", .missingFromRegistry "nk_image",
          .unknownToHeader "struct nk_style" "Style"] ∧
      completeness newerRegistry newerTypes = [] := by
  refine ⟨by decide, (completeness_reports_difference olderRegistry newerTypes).2 newerRegistry ?_⟩
  refine ⟨[⟨⟨.typedef, "nk_image"⟩, "Image"⟩, ⟨⟨.union, "nk_page"⟩, "Page"⟩], ?_, ?_⟩
  · exact List.isPerm_iff.mp (by decide)
  · exact List.isPerm_iff.mp (by decide)

end Lint

end LayoutGuard
