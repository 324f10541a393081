import Mathlib.Data.List.Induction
import LayoutGuard.Proofs.CType
import LayoutGuard.Proofs.SizeTable
import LayoutGuard.Proofs.Text.Collapse

/-!
The normal form of a spelling, and tables that are filled under normal forms. Spellings with
the same words have one key, so a table that only ever got spellings has one size for each
list of words and finds it however the words are set apart.
-/

namespace LayoutGuard

/-- The spellings differ in nothing but white space around and between words. -/
def SameWords (s t : String) : Prop :=
  ∃ ws, Text.HasWords s.toList ws ∧ Text.HasWords t.toList ws

def inked (s : String) : List Char :=
  s.toList.filter fun c => !Text.isBlank c

variable {s t : String} {pairs : List (String × UInt64)} {n : UInt64}

/-- Spellings have one normal form exactly when they have the same words. -/
theorem CType.normalizeSpelling_eq_iff_sameWords :
    CType.normalizeSpelling s = CType.normalizeSpelling t ↔ SameWords s t := by
  rw [CType.normalizeSpelling_eq_iff, Text.words_eq_words_iff]
  rfl

theorem CType.normalizeSpelling_normalizeSpelling (s : String) :
    CType.normalizeSpelling (CType.normalizeSpelling s) = CType.normalizeSpelling s := by
  rw [CType.normalizeSpelling_eq_iff, CType.normalizeSpelling, String.toList_ofList,
    Text.words_collapse]

namespace SizeTable

theorem ofSpellings_concat (pairs : List (String × UInt64)) (s : String) (n : UInt64) :
    ofSpellings (pairs ++ [(s, n)]) = (ofSpellings pairs).insertSpelling s n := by
  rw [ofSpellings, ofSpellings, List.foldl_append]
  rfl

/-- Every key is the normal form of an inserted spelling. -/
theorem exists_of_find?_ofSpellings {key : String} (h : (ofSpellings pairs).find? key = some n) :
    ∃ p ∈ pairs, CType.normalizeSpelling p.1 = key := by
  induction pairs using List.reverseRecOn with
  | nil =>
    rw [ofSpellings, List.foldl_nil, find?_empty] at h
    cases h
  | append_singleton pairs p ih =>
    rw [ofSpellings_concat, insertSpelling, find?_put] at h
    split at h
    · next hkey => exact ⟨p, List.mem_concat_self, hkey⟩
    · obtain ⟨q, hq, hkey⟩ := ih h
      exact ⟨q, List.mem_append_left _ hq, hkey⟩

theorem getSpelling?_insertSpelling (table : SizeTable) (s t : String) (n : UInt64) :
    (table.insertSpelling s n).getSpelling? t =
      if CType.normalizeSpelling s = CType.normalizeSpelling t then some n
      else table.getSpelling? t :=
  find?_put table _ _ n

/-- Nothing that was inserted is lost, whatever was inserted afterwards. -/
theorem exists_getSpelling?_ofSpellings (h : (s, n) ∈ pairs) (hwords : SameWords s t) :
    ∃ m, (ofSpellings pairs).getSpelling? t = some m := by
  induction pairs using List.reverseRecOn with
  | nil => cases h
  | append_singleton pairs p ih =>
    rw [ofSpellings_concat, getSpelling?_insertSpelling]
    split
    · exact ⟨p.2, rfl⟩
    · next hother =>
      rcases List.mem_append.mp h with hearlier | hlast
      · exact ih hearlier
      · obtain rfl := List.mem_singleton.mp hlast
        exact absurd (CType.normalizeSpelling_eq_iff_sameWords.mpr hwords) hother

/-- The size inserted last for some words is the one that is found. -/
theorem getSpelling?_ofSpellings {before after : List (String × UInt64)}
    (hafter : ∀ p ∈ after, ¬SameWords p.1 t) (hwords : SameWords s t) :
    (ofSpellings (before ++ (s, n) :: after)).getSpelling? t = some n := by
  induction after using List.reverseRecOn with
  | nil =>
    rw [ofSpellings_concat, getSpelling?_insertSpelling,
      if_pos (CType.normalizeSpelling_eq_iff_sameWords.mpr hwords)]
  | append_singleton after p ih =>
    have hother : CType.normalizeSpelling p.1 ≠ CType.normalizeSpelling t := fun heq =>
      hafter p List.mem_concat_self (CType.normalizeSpelling_eq_iff_sameWords.mp heq)
    rw [← List.cons_append, ← List.append_assoc, ofSpellings_concat,
      getSpelling?_insertSpelling, if_neg hother]
    exact ih fun q hq => hafter q (List.mem_append_left _ hq)

/-- A key of the table is its own normal form. -/
theorem normalizeSpelling_key {key : String} (h : (ofSpellings pairs).find? key = some n) :
    CType.normalizeSpelling key = key := by
  obtain ⟨p, -, rfl⟩ := exists_of_find?_ofSpellings h
  exact CType.normalizeSpelling_normalizeSpelling p.1

/-- The normal form of a spelling has no white space but single spaces between words, and it
keeps all other characters in their order. It is its own normal form, and two spellings have
the same one exactly when they have the same words. A table that is filled with spellings
never has two keys with the same words. It finds a size under every spelling with the words of
an inserted one, namely the size that was inserted last for these words. -/
theorem normal_spellings_are_canonical :
    (∀ s, Text.Collapsed (CType.normalizeSpelling s).toList ∧
      inked (CType.normalizeSpelling s) = inked s ∧
      CType.normalizeSpelling (CType.normalizeSpelling s) = CType.normalizeSpelling s) ∧
    (∀ s t, CType.normalizeSpelling s = CType.normalizeSpelling t ↔ SameWords s t) ∧
    ∀ pairs : List (String × UInt64),
      (∀ k l m n, (ofSpellings pairs).find? k = some m → (ofSpellings pairs).find? l = some n →
        SameWords k l → k = l) ∧
      (∀ s n t, (s, n) ∈ pairs → SameWords s t →
        ∃ m, (ofSpellings pairs).getSpelling? t = some m) ∧
      ∀ before s n after t, pairs = before ++ (s, n) :: after →
        (∀ p ∈ after, ¬SameWords p.1 t) → SameWords s t →
        (ofSpellings pairs).getSpelling? t = some n := by
  refine ⟨?_, fun _ _ => CType.normalizeSpelling_eq_iff_sameWords, ?_⟩
  · intro s
    refine ⟨?_, ?_, CType.normalizeSpelling_normalizeSpelling s⟩
    · rw [CType.normalizeSpelling, String.toList_ofList]
      exact Text.collapsed_collapse s.toList
    · rw [inked, inked, CType.normalizeSpelling, String.toList_ofList, Text.filter_collapse]
  · intro pairs
    refine ⟨?_, fun s n t => exists_getSpelling?_ofSpellings, ?_⟩
    · intro k l m n hk hl hwords
      rw [← normalizeSpelling_key hk, ← normalizeSpelling_key hl]
      exact CType.normalizeSpelling_eq_iff_sameWords.mpr hwords
    · rintro before s n after t rfl hafter hwords
      exact getSpelling?_ofSpellings hafter hwords

/-! One type in three ways of writing -/

def respelledSizes : List (String × UInt64) :=
  [("struct\tnk_color", 4), ("nk_handle", 8), ("\n struct \u00a0nk_color", 16)]

theorem sameWords_respelled : SameWords "\n struct \u00a0nk_color" "struct nk_color " :=
  Text.words_eq_words_iff.mp (by decide +kernel)

/-- Tabs, line feeds and a no-break space make no other key. -/
theorem respelledSizes_have_one_key :
    (ofSpellings respelledSizes).getSpelling? "struct nk_color " = some 16 ∧
      (∃ m, (ofSpellings respelledSizes).getSpelling? "struct nk_color " = some m) ∧
      ∀ k l m n, (ofSpellings respelledSizes).find? k = some m →
        (ofSpellings respelledSizes).find? l = some n → SameWords k l → k = l := by
  obtain ⟨-, -, htables⟩ := normal_spellings_are_canonical
  obtain ⟨hkeys, hfound, hlast⟩ := htables respelledSizes
  refine ⟨?_, ?_, hkeys⟩
  · exact hlast [("struct\tnk_color", 4), ("nk_handle", 8)] _ 16 [] _ rfl (List.forall_mem_nil _)
      sameWords_respelled
  · exact hfound "\n struct \u00a0nk_color" 16 _ (by simp [respelledSizes]) sameWords_respelled

end SizeTable

end LayoutGuard
