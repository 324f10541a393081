import Mathlib.Data.List.Chain
import LayoutGuard.Proofs.Text.Blank

/-!
Collapsed text. The words of a text are determined by how it is laid out: blanks may stand
before and after a word, and at least one stands between two words. The collapsed form has
the same words, single spaces between them and no other white space, and it is all that can
be told of a text without its white space.
-/

namespace LayoutGuard.Text

/-- A text with its words: blanks stand in front of a word, and a blank or nothing behind
it. -/
inductive HasWords : List Char → List (List Char) → Prop
  | gap {gap : List Char} (h : ∀ c ∈ gap, isBlank c = true) : HasWords gap []
  | word {gap w rest : List Char} {ws : List (List Char)} (hgap : ∀ c ∈ gap, isBlank c = true)
      (hnil : w ≠ []) (hw : ∀ c ∈ w, isBlank c = false)
      (hstop : ∀ c ∈ rest.head?, isBlank c = true) (hrest : HasWords rest ws) :
    HasWords (gap ++ (w ++ rest)) (w :: ws)

/-- White space is single spaces, none of them at an end of the text. -/
structure Collapsed (cs : List Char) : Prop where
  spaces : ∀ c ∈ cs, isBlank c = true → c = ' '
  first : ∀ c ∈ cs.head?, isBlank c = false
  last : ∀ c ∈ cs.getLast?, isBlank c = false
  single : cs.IsChain fun c d => isBlank c = false ∨ isBlank d = false

variable {cs ds gap w : List Char} {ws vs : List (List Char)}

/-! Words by layout -/

theorem words_cons_blank {c : Char} (hc : isBlank c = true) (cs : List Char) :
    words (c :: cs) = words cs := by
  have hcut := words_append_blank hc [] cs
  rw [List.nil_append] at hcut
  rw [hcut]
  rfl

theorem words_gap_append (hgap : ∀ c ∈ gap, isBlank c = true) (cs : List Char) :
    words (gap ++ cs) = words cs := by
  induction gap with
  | nil => rfl
  | cons c gap ih =>
    rw [List.cons_append, words_cons_blank (hgap c List.mem_cons_self),
      ih fun d hd => hgap d (List.mem_cons_of_mem c hd)]

theorem words_gap (hgap : ∀ c ∈ gap, isBlank c = true) : words gap = [] := by
  rw [← List.append_nil gap, words_gap_append hgap]
  rfl

theorem words_word_append (hnil : w ≠ []) (hw : ∀ c ∈ w, isBlank c = false)
    (hstop : ∀ c ∈ cs.head?, isBlank c = true) : words (w ++ cs) = w :: words cs := by
  cases cs with
  | nil =>
    rw [List.append_nil, words_of_not_blank hnil hw]
    rfl
  | cons c cs =>
    have hc : isBlank c = true := hstop c rfl
    rw [words_append_blank hc, words_of_not_blank hnil hw, words_cons_blank hc]
    rfl

theorem HasWords.words_eq (h : HasWords cs ws) : words cs = ws := by
  induction h with
  | gap h => exact words_gap h
  | word hgap hnil hw hstop hrest ih =>
    rw [words_gap_append hgap, words_word_append hnil hw hstop, ih]

theorem HasWords.cons_blank {c : Char} (hc : isBlank c = true) (h : HasWords cs ws) :
    HasWords (c :: cs) ws := by
  cases h with
  | gap h => exact .gap (List.forall_mem_cons.mpr ⟨hc, h⟩)
  | @word gap _ _ _ hgap hnil hw hstop hrest =>
    have hgap : ∀ d ∈ c :: gap, isBlank d = true := List.forall_mem_cons.mpr ⟨hc, hgap⟩
    exact .word hgap hnil hw hstop hrest

theorem HasWords.cons_word {c : Char} (hc : isBlank c = false)
    (hstop : ∀ d ∈ cs.head?, isBlank d = true) (h : HasWords cs ws) :
    HasWords (c :: cs) ([c] :: ws) :=
  @HasWords.word [] [c] cs ws (List.forall_mem_nil _) (List.cons_ne_nil c [])
    (by simpa using hc) hstop h

/-- Every text has words. -/
theorem exists_hasWords (cs : List Char) : ∃ ws, HasWords cs ws := by
  induction cs with
  | nil => exact ⟨[], .gap (List.forall_mem_nil _)⟩
  | cons c cs ih =>
    obtain ⟨ws, h⟩ := ih
    cases hc : isBlank c with
    | true => exact ⟨ws, h.cons_blank hc⟩
    | false =>
      by_cases hstop : ∀ d ∈ cs.head?, isBlank d = true
      · exact ⟨[c] :: ws, h.cons_word hc hstop⟩
      · -- The character goes to the front of the first word, which no gap precedes.
        cases h with
        | gap h => exact absurd (fun d hd => h d (List.mem_of_mem_head? hd)) hstop
        | @word gap w rest ws hgap hnil hw hbehind hrest =>
          cases gap with
          | cons d gap =>
            exact absurd (by simpa using hgap d List.mem_cons_self) hstop
          | nil =>
            have hw : ∀ d ∈ c :: w, isBlank d = false := List.forall_mem_cons.mpr ⟨hc, hw⟩
            exact ⟨(c :: w) :: ws, @HasWords.word [] (c :: w) rest ws (List.forall_mem_nil _)
              (List.cons_ne_nil c w) hw hbehind hrest⟩

/-- The reader of words finds those that the layout shows. -/
theorem words_eq_iff : words cs = ws ↔ HasWords cs ws := by
  constructor
  · rintro rfl
    obtain ⟨ws, h⟩ := exists_hasWords cs
    rw [h.words_eq]
    exact h
  · exact HasWords.words_eq

theorem words_eq_words_iff : words cs = words ds ↔ ∃ ws, HasWords cs ws ∧ HasWords ds ws := by
  constructor
  · intro h
    exact ⟨words ds, words_eq_iff.mp h, words_eq_iff.mp rfl⟩
  · rintro ⟨ws, hcs, hds⟩
    rw [hcs.words_eq, hds.words_eq]

/-! The collapsed form -/

theorem HasWords.filter_eq (h : HasWords cs ws) :
    cs.filter (fun c => !isBlank c) = ws.flatten := by
  have hnone {gap : List Char} (hgap : ∀ c ∈ gap, isBlank c = true) :
      gap.filter (fun c => !isBlank c) = [] :=
    List.filter_eq_nil_iff.mpr fun c hc => by simp [hgap c hc]
  induction h with
  | gap h => exact hnone h
  | word hgap hnil hw hstop hrest ih =>
    rw [List.filter_append, List.filter_append, hnone hgap, ih,
      List.filter_eq_self.mpr fun c hc => by simp [hw c hc]]
    rfl

/-- Collapsing moves and drops white space only. -/
theorem filter_collapse (cs : List Char) :
    (collapse cs).filter (fun c => !isBlank c) = cs.filter fun c => !isBlank c := by
  have hwords : HasWords (collapse cs) (words cs) := words_eq_iff.mp (words_collapse cs)
  have hsame : HasWords cs (words cs) := words_eq_iff.mp rfl
  rw [hwords.filter_eq, hsame.filter_eq]

theorem collapsed_word (hw : ∀ c ∈ w, isBlank c = false) : Collapsed w := by
  refine ⟨?_, ?_, ?_, ?_⟩
  · intro c hc hblank
    rw [hw c hc] at hblank
    cases hblank
  · exact fun c hc => hw c (List.mem_of_mem_head? hc)
  · exact fun c hc => hw c (List.mem_of_mem_getLast? hc)
  · apply List.isChain_iff_forall_rel_of_append_cons_cons.mpr
    rintro c d u v rfl
    exact Or.inl (hw c (by simp))

/-- A word and a single space keep a text collapsed. -/
theorem Collapsed.word_append (hnil : w ≠ []) (hw : ∀ c ∈ w, isBlank c = false)
    (hcs : cs ≠ []) (h : Collapsed cs) : Collapsed (w ++ ' ' :: cs) := by
  have hword := collapsed_word hw
  refine ⟨?_, ?_, ?_, ?_⟩
  · intro c hc hblank
    rcases List.mem_append.mp hc with hc | hc
    · exact hword.spaces c hc hblank
    · rcases List.mem_cons.mp hc with rfl | hc
      · rfl
      · exact h.spaces c hc hblank
  · rw [List.head?_append_of_ne_nil w hnil]
    exact hword.first
  · rw [List.getLast?_append_of_ne_nil w (List.cons_ne_nil ' ' cs), List.getLast?_cons_of_ne_nil hcs]
    exact h.last
  · apply List.isChain_append.mpr
    refine ⟨hword.single, List.isChain_cons.mpr ⟨?_, h.single⟩, ?_⟩
    · exact fun d hd => Or.inr (h.first d hd)
    · exact fun c hc d _ => Or.inl (hword.last c hc)

theorem collapsed_intercalate (hnil : ∀ w ∈ ws, w ≠ [])
    (hblank : ∀ w ∈ ws, ∀ c ∈ w, isBlank c = false) : Collapsed (List.intercalate [' '] ws) := by
  induction ws with
  | nil => exact collapsed_word (List.forall_mem_nil _)
  | cons w ws ih =>
    obtain ⟨hw, hws⟩ := List.forall_mem_cons.mp hnil
    obtain ⟨hwblank, hwsblank⟩ := List.forall_mem_cons.mp hblank
    cases ws with
    | nil =>
      rw [List.intercalate_singleton]
      exact collapsed_word hwblank
    | cons v ws =>
      have hne : List.intercalate [' '] (v :: ws) ≠ [] := by
        intro h
        have hwords := words_intercalate hws hwsblank
        rw [h] at hwords
        cases hwords
      rw [List.intercalate_cons_cons, List.append_assoc, List.singleton_append]
      exact (ih hws hwsblank).word_append hw hwblank hne

/-- The collapsed form is what its name says. -/
theorem collapsed_collapse (cs : List Char) : Collapsed (collapse cs) :=
  collapsed_intercalate (fun _ hw => ne_nil_of_mem_words hw) fun _ hw => not_blank_of_mem_words hw

end LayoutGuard.Text
