import Mathlib.Data.List.TakeWhile
import LayoutGuard.Proofs.Text.Reading
import LayoutGuard.Text.Word

/-!
Word characters and blanks. Name characters are word characters, blanks are not, and
so a name is read as a whole where a blank or a sign follows.
-/

namespace LayoutGuard.Text

theorem ascii_of_isNameRest {c : Char} (h : isNameRest c = true) : c.toNat < 128 := by
  simp only [isNameRest, isNameStart, isLetter, isDigit, Bool.or_eq_true, Bool.and_eq_true,
    decide_eq_true_eq, Char.le_def, UInt32.le_iff_toNat_le] at h
  rcases h with (rfl | h | h) | h
  · decide
  · have hz : c.toNat ≤ 122 := h.2
    omega
  · have hz : c.toNat ≤ 90 := h.2
    omega
  · have hz : c.toNat ≤ 57 := h.2
    omega

theorem isWordChar_of_isNameRest {c : Char} (h : isNameRest c = true) : isWordChar c = true := by
  rw [isWordChar, if_pos (ascii_of_isNameRest h), h]

theorem isNameStart_of_isWordChar {c : Char} (hc : isWordChar c = false) :
    isNameStart c = false := by
  cases h : isNameStart c with
  | false => rfl
  | true =>
    rw [isWordChar_of_isNameRest (by simp [isNameRest, h])] at hc
    cases hc

def blankCodes : List Nat :=
  blankRanges.flatMap fun r => List.range' r.1 (r.2 - r.1 + 1)

theorem mem_blankCodes {c : Char} (h : isBlank c = true) : c.toNat ∈ blankCodes := by
  obtain ⟨r, hr, hin⟩ := List.any_eq_true.mp h
  simp only [Bool.and_eq_true, decide_eq_true_eq] at hin
  refine List.mem_flatMap.mpr ⟨r, hr, List.mem_range'_1.mpr ?_⟩
  omega

theorem isWordChar_blankCodes : ∀ n ∈ blankCodes, isWordChar (Char.ofNat n) = false := by
  decide +kernel

/-- No white space is part of a word. -/
theorem isWordChar_of_isBlank {c : Char} (h : isBlank c = true) : isWordChar c = false := by
  have hcode := isWordChar_blankCodes c.toNat (mem_blankCodes h)
  rwa [Char.ofNat_toNat] at hcode

theorem isBlank_of_isWordChar {c : Char} (h : isWordChar c = true) : isBlank c = false := by
  cases hblank : isBlank c with
  | false => rfl
  | true =>
    rw [isWordChar_of_isBlank hblank] at h
    cases h

/-! Readers take their piece off the front -/

theorem char?_eq_some_iff {wanted : Char} {cs rest : List Char} :
    char? wanted cs = some rest ↔ cs = wanted :: rest := by
  cases cs with
  | nil => simp [char?]
  | cons c cs => by_cases hc : c = wanted <;> simp [char?, hc]

theorem exists_blanks (cs : List Char) :
    ∃ gap, cs = gap ++ skipBlanks cs ∧ ∀ c ∈ gap, isBlank c = true :=
  ⟨cs.takeWhile isBlank, List.takeWhile_append_dropWhile.symm, fun _ => List.mem_takeWhile_imp⟩

theorem exists_blanks_of_blanks? {cs rest : List Char} (h : blanks? cs = some rest) :
    ∃ c gap, cs = c :: (gap ++ rest) ∧ isBlank c = true ∧ ∀ d ∈ gap, isBlank d = true := by
  cases cs with
  | nil => cases h
  | cons c cs =>
    rw [blanks?] at h
    split at h
    · rename_i hc
      cases h
      obtain ⟨gap, hsplit, hgap⟩ := exists_blanks cs
      exact ⟨c, gap, congrArg (c :: ·) hsplit, hc, hgap⟩
    · cases h

/-- A name that is read is in front of the text, and all of it are word characters. -/
theorem exists_name_of_name? {cs name rest : List Char} (h : name? cs = some (name, rest)) :
    cs = name ++ rest ∧ name ≠ [] ∧ ∀ c ∈ name, isWordChar c = true := by
  cases cs with
  | nil => cases h
  | cons c cs =>
    rw [name?] at h
    split at h
    · rename_i hc
      cases h
      refine ⟨congrArg (c :: ·) List.takeWhile_append_dropWhile.symm, List.cons_ne_nil _ _, ?_⟩
      intro d hd
      rcases List.mem_cons.mp hd with rfl | hd
      · exact isWordChar_of_isNameRest (by simp [isNameRest, hc])
      · exact List.mem_takeWhile_imp hd
    · cases h

/-! Names are read as a whole -/

theorem skipBlanks_cons_blank {c : Char} (hc : isBlank c = true) (cs : List Char) :
    skipBlanks (c :: cs) = skipBlanks cs :=
  List.dropWhile_cons_of_pos hc

theorem skipBlanks_of_not_blank {c : Char} (hc : isBlank c = false) (cs : List Char) :
    skipBlanks (c :: cs) = c :: cs :=
  List.dropWhile_cons_of_neg (by simp [hc])

theorem skipBlanks_gap {gap : List Char} (hgap : ∀ c ∈ gap, isBlank c = true) (rest : List Char) :
    skipBlanks (gap ++ rest) = skipBlanks rest :=
  List.dropWhile_append_of_pos hgap

theorem skipBlanks_word {w : List Char} (hnil : w ≠ []) (hw : ∀ c ∈ w, isWordChar c = true)
    (rest : List Char) : skipBlanks (w ++ rest) = w ++ rest := by
  obtain ⟨c, cs, rfl⟩ := List.exists_cons_of_ne_nil hnil
  exact skipBlanks_of_not_blank (isBlank_of_isWordChar (hw c List.mem_cons_self)) (cs ++ rest)

theorem skipBlanks_append_space (cs : List Char) :
    skipBlanks cs = [] ∧ skipBlanks (cs ++ [' ']) = [] ∨
      skipBlanks cs ≠ [] ∧ skipBlanks (cs ++ [' ']) = skipBlanks cs ++ [' '] := by
  induction cs with
  | nil => exact Or.inl ⟨rfl, rfl⟩
  | cons c cs ih =>
    cases hc : isBlank c with
    | true =>
      rw [List.cons_append, skipBlanks_cons_blank hc, skipBlanks_cons_blank hc]
      exact ih
    | false =>
      rw [List.cons_append, skipBlanks_of_not_blank hc, skipBlanks_of_not_blank hc]
      exact Or.inr ⟨List.cons_ne_nil c cs, rfl⟩

theorem char?_skipBlanks_append_space {wanted : Char} (hwanted : ' ' ≠ wanted) (cs : List Char) :
    char? wanted (skipBlanks (cs ++ [' '])) =
      (char? wanted (skipBlanks cs)).map (· ++ [' ']) := by
  rcases skipBlanks_append_space cs with ⟨hcs, hcs'⟩ | ⟨-, hcs'⟩
  · rw [hcs, hcs']
    rfl
  · rw [hcs', char?_append_stop hwanted]

theorem blanks?_gap_word {gap w : List Char} (hnil : gap ≠ []) (hgap : ∀ c ∈ gap, isBlank c = true)
    (hword : w ≠ []) (hw : ∀ c ∈ w, isWordChar c = true) (rest : List Char) :
    blanks? (gap ++ (w ++ rest)) = some (w ++ rest) := by
  obtain ⟨c, cs, rfl⟩ := List.exists_cons_of_ne_nil hnil
  rw [List.cons_append, blanks?, if_pos (hgap c List.mem_cons_self),
    skipBlanks_gap fun d hd => hgap d (List.mem_cons_of_mem c hd), skipBlanks_word hword hw]

theorem blanks?_space_word {w : List Char} (hnil : w ≠ []) (hw : ∀ c ∈ w, isWordChar c = true)
    (rest : List Char) : blanks? (' ' :: (w ++ rest)) = some (w ++ rest) :=
  blanks?_gap_word (List.cons_ne_nil ' ' []) (List.all_eq_true.mp (by decide)) hnil hw rest

/-- A gap with a sign behind it begins with a sign. -/
theorem exists_sign {p : Char → Bool} {gap : List Char} (hgap : ∀ c ∈ gap, p c = false) {d : Char}
    (hd : p d = false) (rest : List Char) :
    ∃ e tail, gap ++ d :: rest = e :: tail ∧ p e = false := by
  cases gap with
  | nil => exact ⟨d, rest, rfl, hd⟩
  | cons e gap => exact ⟨e, gap ++ d :: rest, rfl, hgap e List.mem_cons_self⟩

theorem name?_word {c : Char} {cs : List Char} (hc : isNameStart c = true)
    (hcs : ∀ e ∈ cs, isWordChar e = true) {d : Char} (hd : isWordChar d = false)
    (rest : List Char) : name? (c :: cs ++ d :: rest) = some (c :: cs, d :: rest) := by
  rw [List.cons_append, name?, if_pos hc, takeWhile_stop hcs hd, dropWhile_stop hcs hd]

theorem name?_append_stop {d : Char} (hd : isWordChar d = false) (u rest : List Char) :
    name? (u ++ d :: rest) = (name? u).map fun r => (r.1, r.2 ++ d :: rest) := by
  cases u with
  | nil => simp [name?, isNameStart_of_isWordChar hd]
  | cons c u =>
    rw [List.cons_append, name?, name?, takeWhile_append_stop u hd, dropWhile_append_stop u hd]
    split <;> rfl

/-- A name is read up to the first character that is no part of a word. -/
theorem name?_append {name : List Char} (hname : isName name = true) {d : Char}
    (hd : isWordChar d = false) (rest : List Char) :
    name? (name ++ d :: rest) = some (name, d :: rest) := by
  cases name with
  | nil => cases hname
  | cons c cs =>
    have hword : ∀ e ∈ cs, isWordChar e = true := fun e he =>
      isWordChar_of_isNameRest (isNameRest_of_mem_name hname (List.mem_cons_of_mem c he))
    simp only [isName, Bool.and_eq_true] at hname
    exact name?_word hname.1 hword hd rest

end LayoutGuard.Text
