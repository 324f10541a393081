import Mathlib.Data.List.Find
import LayoutGuard.Proofs.CType
import LayoutGuard.Registry

/-!
Looking types up in a registry, by kind and name or by spelling. Both ways find the first
entry for the type, because types whose names are single words have spellings of their own,
and white space around and between the words of a spelling does not count.
-/

namespace LayoutGuard.Registry

/-- The entry for a type that precedes all others for it. -/
def FirstFor (r : Registry) (t : CType) (b : Binding) : Prop :=
  ∃ before after, r.bindings = before ++ b :: after ∧ b.ctype = t ∧ ∀ c ∈ before, c.ctype ≠ t

variable {r : Registry} {t : CType} {s : String}

theorem find?_ctype_eq_some_iff {b : Binding} :
    (r.bindings.find? fun c => c.ctype = t) = some b ↔ r.FirstFor t b := by
  rw [List.find?_eq_some_iff_append, FirstFor]
  simp only [decide_eq_true_eq, Bool.not_eq_true', decide_eq_false_iff_not]
  constructor
  · rintro ⟨hb, before, after, hsplit, hbefore⟩
    exact ⟨before, after, hsplit, hb, hbefore⟩
  · rintro ⟨before, after, hsplit, hb, hbefore⟩
    exact ⟨hb, before, after, hsplit, hbefore⟩

/-- A look-up finds the name in the first entry for a type. -/
theorem lookup_eq_ok_iff {name : String} :
    r.lookup t = .ok name ↔ ∃ b, r.FirstFor t b ∧ b.odinName = name := by
  simp only [← find?_ctype_eq_some_iff, lookup]
  cases r.bindings.find? fun c => c.ctype = t with
  | none => simp
  | some b => simp

/-- A look-up fails when no entry is for the type. -/
theorem lookup_eq_error_iff {f : Fault} :
    r.lookup t = .error f ↔ (∀ b ∈ r.bindings, b.ctype ≠ t) ∧ f = .notRegistered t.spelling := by
  have hmissing : (∀ b ∈ r.bindings, b.ctype ≠ t) ↔
      (r.bindings.find? fun c => c.ctype = t) = none := by
    simp [List.find?_eq_none]
  rw [hmissing, lookup]
  cases r.bindings.find? fun c => c.ctype = t with
  | none => simp [eq_comm]
  | some b => simp

/-- The words of a spelling designate the type that has this spelling. -/
theorem lookupSpelling_eq_lookup (hr : ∀ b ∈ r.bindings, b.ctype.NamedByWord)
    (ht : t.NamedByWord) (hs : Text.words s.toList = Text.words t.spelling.toList) :
    r.lookupSpelling s = r.lookup t := by
  have hnormal : CType.normalizeSpelling s = t.spelling :=
    (CType.normalizeSpelling_eq_iff.mpr hs).trans (CType.normalizeSpelling_spelling ht)
  have hfind : (r.bindings.find? fun b => b.spelling = t.spelling) =
      r.bindings.find? fun b => b.ctype = t := by
    apply List.find?_congr
    intro b hb
    exact decide_eq_decide.mpr (CType.spelling_inj (hr b hb) ht)
  rw [lookupSpelling, hnormal, hfind, lookup]

/-- Looking up a text that has the words of a type's spelling, in any white space, gives
what looking up the type gives. This is the Odin name of the first entry for the type, and
without an entry for it the fault that its spelling is not registered. -/
theorem lookups_agree (hr : ∀ b ∈ r.bindings, b.ctype.NamedByWord) (ht : t.NamedByWord)
    (hs : Text.words s.toList = Text.words t.spelling.toList) :
    r.lookupSpelling s = r.lookup t ∧
      (∀ name, r.lookup t = .ok name ↔ ∃ b, r.FirstFor t b ∧ b.odinName = name) ∧
      ∀ f, r.lookup t = .error f ↔
        (∀ b ∈ r.bindings, b.ctype ≠ t) ∧ f = .notRegistered t.spelling :=
  ⟨lookupSpelling_eq_lookup hr ht hs, fun _ => lookup_eq_ok_iff, fun _ => lookup_eq_error_iff⟩

/-! One name for types of all three kinds, one of them listed twice -/

def namesakes : Registry :=
  ⟨[⟨⟨.struct, "nk_page"⟩, "Page"⟩, ⟨⟨.typedef, "nk_page"⟩, "Page_Handle"⟩,
    ⟨⟨.union, "nk_page"⟩, "Page_Data"⟩, ⟨⟨.union, "nk_page"⟩, "Old_Page_Data"⟩]⟩

/-- Unicode white space in a spelling, and a name that belongs to two kinds of types. -/
theorem lookups_namesakes :
    (∀ b ∈ namesakes.bindings, b.ctype.NamedByWord) ∧
      namesakes.lookupSpelling "\u2003union\t\u3000nk_page\n" = .ok "Page_Data" ∧
      namesakes.lookup ⟨.union, "nk_page"⟩ = .ok "Page_Data" ∧
      namesakes.lookupSpelling "\u00a0nk_pool " = .error (.notRegistered "nk_pool") := by
  have hwords : ∀ b ∈ namesakes.bindings, b.ctype.NamedByWord := by
    intro b hb
    apply CType.namedByWord_of_isName
    revert b
    decide
  have hpage : CType.NamedByWord ⟨.union, "nk_page"⟩ := CType.namedByWord_of_isName (by decide)
  have hpool : CType.NamedByWord ⟨.typedef, "nk_pool"⟩ := CType.namedByWord_of_isName (by decide)
  obtain ⟨hsame, hnamed, -⟩ :=
    lookups_agree (s := "\u2003union\t\u3000nk_page\n") hwords hpage (by decide +kernel)
  obtain ⟨hsame', -, hmissing⟩ :=
    lookups_agree (s := "\u00a0nk_pool ") hwords hpool (by decide +kernel)
  have hfound : namesakes.lookup ⟨.union, "nk_page"⟩ = .ok "Page_Data" :=
    (hnamed "Page_Data").mpr ⟨⟨⟨.union, "nk_page"⟩, "Page_Data"⟩,
      ⟨namesakes.bindings.take 2, namesakes.bindings.drop 3, by decide, rfl, by decide⟩, rfl⟩
  exact ⟨hwords, hsame.trans hfound, hfound, hsame'.trans ((hmissing _).mpr ⟨by decide, rfl⟩)⟩

end LayoutGuard.Registry
