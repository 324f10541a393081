import LayoutGuard.CType
import LayoutGuard.Proofs.Text.Blank
import LayoutGuard.Proofs.Text.Word

/-!
Normalized spellings. Two spellings have one normal form when they have the same words. A
type whose name is a single word has a spelling of its own, which is its normal form.
-/

namespace LayoutGuard.CType

/-- Normal forms tell lists of words apart and nothing else. -/
theorem normalizeSpelling_eq_iff {s t : String} :
    normalizeSpelling s = normalizeSpelling t ↔ Text.words s.toList = Text.words t.toList := by
  unfold normalizeSpelling
  rw [String.ofList_inj, Text.collapse_eq_iff]

/-! Names of one word -/

/-- The name is not empty and holds no white space. -/
structure NamedByWord (t : CType) : Prop where
  name_ne_nil : t.name.toList ≠ []
  not_blank : ∀ c ∈ t.name.toList, Text.isBlank c = false

theorem word_of_isName {cs : List Char} (h : Text.isName cs = true) :
    cs ≠ [] ∧ ∀ c ∈ cs, Text.isBlank c = false := by
  constructor
  · rintro rfl
    cases h
  · exact fun _ hc =>
      Text.isBlank_of_isWordChar (Text.isWordChar_of_isNameRest (Text.isNameRest_of_mem_name h hc))

theorem namedByWord_of_isName {t : CType} (h : Text.isName t.name.toList = true) :
    t.NamedByWord :=
  ⟨(word_of_isName h).1, (word_of_isName h).2⟩

def Kind.keywords : Kind → List (List Char)
  | .struct => ["struct".toList]
  | .union => ["union".toList]
  | .typedef => []

theorem Kind.isName_of_mem_keywords {k : Kind} {w : List Char} (h : w ∈ k.keywords) :
    Text.isName w = true := by
  cases k with
  | struct => exact List.mem_singleton.mp h ▸ by decide
  | union => exact List.mem_singleton.mp h ▸ by decide
  | typedef => cases h

/-- Neither keyword can be the name of a type, so the kind and the name can be read off. -/
theorem Kind.keywords_append_injective {k l : Kind} {u v : List Char}
    (h : k.keywords ++ [u] = l.keywords ++ [v]) : k = l ∧ u = v := by
  cases k <;> cases l <;> simp_all [Kind.keywords]

variable {t u : CType}

theorem toList_spelling (t : CType) :
    t.spelling.toList = List.intercalate [' '] (t.kind.keywords ++ [t.name.toList]) := by
  obtain ⟨kind, name⟩ := t
  cases kind <;> simp [spelling, Kind.keywords, List.intercalate]

/-- The words of a spelling are the keyword, if there is one, and the name. -/
theorem words_spelling (h : t.NamedByWord) :
    Text.words t.spelling.toList = t.kind.keywords ++ [t.name.toList] := by
  have hwords : ∀ w ∈ t.kind.keywords ++ [t.name.toList],
      w ≠ [] ∧ ∀ c ∈ w, Text.isBlank c = false := by
    intro w hw
    rcases List.mem_append.mp hw with hw | hw
    · exact word_of_isName (Kind.isName_of_mem_keywords hw)
    · exact List.mem_singleton.mp hw ▸ ⟨h.name_ne_nil, h.not_blank⟩
  rw [toList_spelling]
  exact Text.words_intercalate (fun w hw => (hwords w hw).1) fun w hw => (hwords w hw).2

/-- The spelling has no spare white space. -/
theorem normalizeSpelling_spelling (h : t.NamedByWord) :
    normalizeSpelling t.spelling = t.spelling := by
  rw [normalizeSpelling, Text.collapse, words_spelling h, ← toList_spelling, String.ofList_toList]

/-- The spelling of a type whose name is a C identifier is in normal form already. -/
theorem normalizeSpelling_of_isName (h : Text.isName t.name.toList = true) :
    normalizeSpelling t.spelling = t.spelling :=
  normalizeSpelling_spelling (namedByWord_of_isName h)

/-- No two types share a spelling, whatever their kinds are. -/
theorem spelling_inj (ht : t.NamedByWord) (hu : u.NamedByWord) :
    t.spelling = u.spelling ↔ t = u := by
  constructor
  · intro h
    have hwords : t.kind.keywords ++ [t.name.toList] = u.kind.keywords ++ [u.name.toList] := by
      rw [← words_spelling ht, h, words_spelling hu]
    obtain ⟨hkind, hname⟩ := Kind.keywords_append_injective hwords
    obtain ⟨kind, name⟩ := t
    rw [String.toList_inj] at hname
    exact congrArg₂ CType.mk hkind hname
  · exact congrArg spelling

end LayoutGuard.CType
