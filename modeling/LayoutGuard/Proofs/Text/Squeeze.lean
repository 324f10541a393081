import Mathlib.Data.List.DropRight
import LayoutGuard.Proofs.Text.Blank
import LayoutGuard.Proofs.Text.Word

/-!
White space of any length. Squeezing gives all runs of blanks the same length, and a
reader that asks only whether there is a blank reads a squeezed text like the text
itself.
-/

namespace LayoutGuard.Text

/-- Each run of blanks becomes a single space. -/
def squeeze : List Char → List Char
  | [] => []
  | c :: cs => if isBlank c then ' ' :: skipBlanks (squeeze cs) else c :: squeeze cs

theorem squeeze_cons_blank {c : Char} (hc : isBlank c = true) (cs : List Char) :
    squeeze (c :: cs) = ' ' :: skipBlanks (squeeze cs) := by
  rw [squeeze, if_pos hc]

theorem squeeze_cons {c : Char} (hc : isBlank c = false) (cs : List Char) :
    squeeze (c :: cs) = c :: squeeze cs := by
  rw [squeeze, hc, if_neg Bool.false_ne_true]

theorem isBlank_space : isBlank ' ' = true := by
  decide

theorem skipBlanks_skipBlanks (cs : List Char) : skipBlanks (skipBlanks cs) = skipBlanks cs :=
  List.dropWhile_idempotent isBlank cs

theorem skipBlanks_squeeze (cs : List Char) : skipBlanks (squeeze cs) = squeeze (skipBlanks cs) := by
  induction cs with
  | nil => rfl
  | cons c cs ih =>
    cases hc : isBlank c with
    | true =>
      rw [squeeze_cons_blank hc, skipBlanks_cons_blank isBlank_space, skipBlanks_skipBlanks, ih,
        skipBlanks_cons_blank hc]
    | false =>
      rw [squeeze_cons hc, skipBlanks_of_not_blank hc, skipBlanks_of_not_blank hc, squeeze_cons hc]

theorem squeeze_cons_congr (c : Char) {cs ds : List Char} (h : squeeze cs = squeeze ds) :
    squeeze (c :: cs) = squeeze (c :: ds) := by
  rw [squeeze, squeeze, h]

/-- The same text in front keeps texts alike but for white space. -/
theorem squeeze_append_congr (u : List Char) {cs ds : List Char} (h : squeeze cs = squeeze ds) :
    squeeze (u ++ cs) = squeeze (u ++ ds) := by
  induction u with
  | nil => exact h
  | cons c u ih => exact squeeze_cons_congr c ih

/-- More blanks behind a blank make no difference. -/
theorem squeeze_gap {c : Char} {gap : List Char} (hc : isBlank c = true)
    (hgap : ∀ d ∈ gap, isBlank d = true) (cs : List Char) :
    squeeze (c :: (gap ++ cs)) = squeeze (c :: cs) := by
  rw [squeeze_cons_blank hc, squeeze_cons_blank hc, skipBlanks_squeeze, skipBlanks_squeeze,
    skipBlanks_gap hgap]

theorem squeeze_eq_self {cs : List Char} (h : ∀ c ∈ cs, isBlank c = false) : squeeze cs = cs := by
  induction cs with
  | nil => rfl
  | cons c cs ih =>
    rw [squeeze_cons (h c List.mem_cons_self), ih fun d hd => h d (List.mem_cons_of_mem c hd)]

theorem any_isBlank_squeeze (cs : List Char) : (squeeze cs).any isBlank = cs.any isBlank := by
  induction cs with
  | nil => rfl
  | cons c cs ih =>
    cases hc : isBlank c with
    | true => rw [squeeze_cons_blank hc, List.any_cons, List.any_cons, hc, isBlank_space]; rfl
    | false => rw [squeeze_cons hc, List.any_cons, List.any_cons, ih]

/-! Readers of a squeezed text -/

theorem ne_of_isBlank {c d : Char} (hc : isBlank c = true) (hd : isBlank d = false) : c ≠ d := by
  rintro rfl
  rw [hc] at hd
  cases hd

/-- A word without white space is found in front of a squeezed text when it is in front of the
text. -/
theorem isPrefixOf?_squeeze {w : List Char} (hw : ∀ c ∈ w, isBlank c = false) (cs : List Char) :
    w.isPrefixOf? (squeeze cs) = (w.isPrefixOf? cs).map squeeze := by
  induction w generalizing cs with
  | nil =>
    have hnil (ds : List Char) : [].isPrefixOf? ds = some ds := by cases ds <;> rfl
    rw [hnil, hnil, Option.map_some]
  | cons d w ih =>
    have hd := hw d List.mem_cons_self
    cases cs with
    | nil => rfl
    | cons c cs =>
      cases hc : isBlank c with
      | true =>
        rw [squeeze_cons_blank hc]
        simp [List.isPrefixOf?, (ne_of_isBlank isBlank_space hd).symm, (ne_of_isBlank hc hd).symm]
      | false =>
        rw [squeeze_cons hc]
        by_cases hdc : d = c
        · simp [List.isPrefixOf?, hdc, ih fun e he => hw e (List.mem_cons_of_mem d he)]
        · simp [List.isPrefixOf?, hdc]

theorem literal?_squeeze {word : String} (hword : word.toList.any isBlank = false)
    (cs : List Char) : literal? word (squeeze cs) = (literal? word cs).map squeeze :=
  isPrefixOf?_squeeze (fun c hc => by simpa using List.any_eq_false.mp hword c hc) cs

theorem char?_squeeze {wanted : Char} (hwanted : isBlank wanted = false) (cs : List Char) :
    char? wanted (squeeze cs) = (char? wanted cs).map squeeze := by
  cases cs with
  | nil => rfl
  | cons c cs =>
    cases hc : isBlank c with
    | true =>
      rw [squeeze_cons_blank hc, char?, char?, if_neg (ne_of_isBlank isBlank_space hwanted),
        if_neg (ne_of_isBlank hc hwanted), Option.map_none]
    | false =>
      rw [squeeze_cons hc, char?, char?]
      split <;> rfl

theorem blanks?_squeeze (cs : List Char) : blanks? (squeeze cs) = (blanks? cs).map squeeze := by
  cases cs with
  | nil => rfl
  | cons c cs =>
    cases hc : isBlank c with
    | true =>
      rw [squeeze_cons_blank hc, blanks?, if_pos isBlank_space, skipBlanks_skipBlanks,
        skipBlanks_squeeze, blanks?, if_pos hc, Option.map_some]
    | false => simp [squeeze_cons hc, blanks?, hc]

section Runs

variable {p : Char → Bool}

theorem takeWhile_squeeze (hp : ∀ c, isBlank c = true → p c = false) (cs : List Char) :
    (squeeze cs).takeWhile p = cs.takeWhile p := by
  induction cs with
  | nil => rfl
  | cons c cs ih =>
    cases hc : isBlank c with
    | true => simp [squeeze_cons_blank hc, hp c hc, hp ' ' isBlank_space]
    | false => rw [squeeze_cons hc, List.takeWhile_cons, List.takeWhile_cons, ih]

theorem dropWhile_squeeze (hp : ∀ c, isBlank c = true → p c = false) (cs : List Char) :
    (squeeze cs).dropWhile p = squeeze (cs.dropWhile p) := by
  induction cs with
  | nil => rfl
  | cons c cs ih =>
    cases hc : isBlank c with
    | true =>
      simp [squeeze_cons_blank hc, hp c hc, hp ' ' isBlank_space]
    | false =>
      rw [squeeze_cons hc, List.dropWhile_cons, List.dropWhile_cons, ih]
      split
      · rfl
      · rw [squeeze_cons hc]

theorem head?_any_squeeze (hp : ∀ c, isBlank c = true → p c = false) (cs : List Char) :
    (squeeze cs).head?.any p = cs.head?.any p := by
  cases cs with
  | nil => rfl
  | cons c cs =>
    cases hc : isBlank c with
    | true => simp [squeeze_cons_blank hc, hp c hc, hp ' ' isBlank_space]
    | false => rw [squeeze_cons hc]; rfl

theorem takeWhile_skipBlanks (hp : ∀ c, isBlank c = true → p c = true) (cs : List Char) :
    (skipBlanks cs).takeWhile p = skipBlanks (cs.takeWhile p) := by
  induction cs with
  | nil => rfl
  | cons c cs ih =>
    cases hc : isBlank c with
    | true =>
      rw [skipBlanks_cons_blank hc, ih, List.takeWhile_cons_of_pos (hp c hc),
        skipBlanks_cons_blank hc]
    | false =>
      rw [skipBlanks_of_not_blank hc, List.takeWhile_cons]
      split
      · rw [skipBlanks_of_not_blank hc]
      · rfl

theorem dropWhile_skipBlanks (hp : ∀ c, isBlank c = true → p c = true) (cs : List Char) :
    (skipBlanks cs).dropWhile p = cs.dropWhile p := by
  induction cs with
  | nil => rfl
  | cons c cs ih =>
    cases hc : isBlank c with
    | true => rw [skipBlanks_cons_blank hc, ih, List.dropWhile_cons_of_pos (hp c hc)]
    | false => rw [skipBlanks_of_not_blank hc]

/-- A run that goes on over blanks is squeezed itself. -/
theorem takeWhile_squeeze_over (hp : ∀ c, isBlank c = true → p c = true) (cs : List Char) :
    (squeeze cs).takeWhile p = squeeze (cs.takeWhile p) := by
  induction cs with
  | nil => rfl
  | cons c cs ih =>
    cases hc : isBlank c with
    | true =>
      rw [squeeze_cons_blank hc, List.takeWhile_cons_of_pos (hp ' ' isBlank_space),
        takeWhile_skipBlanks hp, ih, List.takeWhile_cons_of_pos (hp c hc), squeeze_cons_blank hc]
    | false =>
      rw [squeeze_cons hc, List.takeWhile_cons, List.takeWhile_cons, ih]
      split
      · rw [squeeze_cons hc]
      · rfl

theorem dropWhile_squeeze_over (hp : ∀ c, isBlank c = true → p c = true) (cs : List Char) :
    (squeeze cs).dropWhile p = squeeze (cs.dropWhile p) := by
  induction cs with
  | nil => rfl
  | cons c cs ih =>
    cases hc : isBlank c with
    | true =>
      rw [squeeze_cons_blank hc, List.dropWhile_cons_of_pos (hp ' ' isBlank_space),
        dropWhile_skipBlanks hp, ih, List.dropWhile_cons_of_pos (hp c hc)]
    | false =>
      rw [squeeze_cons hc, List.dropWhile_cons, List.dropWhile_cons, ih]
      split
      · rfl
      · rw [squeeze_cons hc]

end Runs

theorem isNameStart_of_isBlank {c : Char} (hc : isBlank c = true) : isNameStart c = false :=
  isNameStart_of_isWordChar (isWordChar_of_isBlank hc)

/-- A name is read alike when white space is squeezed. -/
theorem name?_squeeze (cs : List Char) :
    name? (squeeze cs) = (name? cs).map fun r => (r.1, squeeze r.2) := by
  have hword : ∀ c, isBlank c = true → isWordChar c = false := fun c => isWordChar_of_isBlank
  cases cs with
  | nil => rfl
  | cons c cs =>
    cases hc : isBlank c with
    | true =>
      simp [squeeze_cons_blank hc, name?, isNameStart_of_isBlank hc,
        isNameStart_of_isBlank isBlank_space]
    | false =>
      rw [squeeze_cons hc, name?, name?, takeWhile_squeeze hword, dropWhile_squeeze hword]
      split <;> rfl

/-! Trimming and cutting a squeezed text -/

theorem trimEnd_skipBlanks (cs : List Char) : trimEnd (skipBlanks cs) = skipBlanks (trimEnd cs) := by
  induction cs with
  | nil => rfl
  | cons c cs ih =>
    cases hc : isBlank c with
    | true =>
      rw [skipBlanks_cons_blank hc, ih, trimEnd_cons]
      split
      next h => rw [h.2]
      next => rw [skipBlanks_cons_blank hc]
    | false =>
      rw [skipBlanks_of_not_blank hc, trimEnd_cons, if_neg (by simp [hc]),
        skipBlanks_of_not_blank hc]

/-- What trimming leaves does not consist of blanks. -/
theorem skipBlanks_trimEnd_eq_nil_iff {cs : List Char} :
    skipBlanks (trimEnd cs) = [] ↔ trimEnd cs = [] := by
  induction cs with
  | nil => simp [trimEnd, skipBlanks]
  | cons c cs ih =>
    rw [trimEnd_cons]
    split
    next => simp [skipBlanks]
    next h =>
      cases hc : isBlank c with
      | true =>
        have hnil : trimEnd cs ≠ [] := fun hcs => h ⟨hc, hcs⟩
        rw [skipBlanks_cons_blank hc, ih]
        simp [hnil]
      | false => simp [skipBlanks_of_not_blank hc]

theorem trimEnd_squeeze (cs : List Char) : trimEnd (squeeze cs) = squeeze (trimEnd cs) := by
  have hnil {ds : List Char} : squeeze ds = [] ↔ ds = [] := by
    cases ds with
    | nil => simp [squeeze]
    | cons d ds =>
      rw [squeeze]
      split <;> simp
  induction cs with
  | nil => rfl
  | cons c cs ih =>
    cases hc : isBlank c with
    | true =>
      have hempty : skipBlanks (squeeze (trimEnd cs)) = [] ↔ trimEnd cs = [] := by
        rw [skipBlanks_squeeze, hnil, skipBlanks_trimEnd_eq_nil_iff]
      rw [squeeze_cons_blank hc, trimEnd_cons, trimEnd_cons, trimEnd_skipBlanks, ih]
      simp only [isBlank_space, hc, true_and, hempty]
      split
      · rfl
      · rw [squeeze_cons_blank hc]
    | false =>
      rw [squeeze_cons hc, trimEnd_cons, trimEnd_cons, ih, if_neg (by simp [hc]),
        if_neg (by simp [hc]), squeeze_cons hc]

/-- Trimming and squeezing can be done in either order. -/
theorem trim_squeeze (cs : List Char) : trim (squeeze cs) = squeeze (trim cs) := by
  rw [trim, trim, ← trimEnd_squeeze]
  exact congrArg trimEnd (skipBlanks_squeeze cs)

theorem splitOn_skipBlanks {sep : Char} (hsep : isBlank sep = false) (cs : List Char) :
    (skipBlanks cs).splitOn sep = (cs.splitOn sep).modifyHead skipBlanks := by
  induction cs with
  | nil => rfl
  | cons c cs ih =>
    cases hc : isBlank c with
    | true =>
      rw [skipBlanks_cons_blank hc, ih, List.splitOn_cons_eq_if_modifyHead,
        if_neg (by simpa using ne_of_isBlank hc hsep), List.modifyHead_modifyHead]
      congr 1
      funext p
      exact (skipBlanks_cons_blank hc p).symm
    | false =>
      rw [skipBlanks_of_not_blank hc, List.splitOn_cons_eq_if_modifyHead]
      split
      · rfl
      · rw [List.modifyHead_modifyHead]
        congr 1
        funext p
        exact (skipBlanks_of_not_blank hc p).symm

/-- Squeezing leaves the pieces between separators as they are but for white space. -/
theorem splitOn_squeeze {sep : Char} (hsep : isBlank sep = false) (cs : List Char) :
    (squeeze cs).splitOn sep = (cs.splitOn sep).map squeeze := by
  induction cs with
  | nil => rfl
  | cons c cs ih =>
    obtain ⟨p, ps, hcut⟩ := List.exists_cons_of_ne_nil (List.splitOn_ne_nil sep cs)
    cases hc : isBlank c with
    | true =>
      have hne {d : Char} (hd : isBlank d = true) : ¬(d == sep) = true := by
        simpa using ne_of_isBlank hd hsep
      rw [squeeze_cons_blank hc, List.splitOn_cons_eq_if_modifyHead, if_neg (hne isBlank_space),
        splitOn_skipBlanks hsep, ih, List.splitOn_cons_eq_if_modifyHead, if_neg (hne hc), hcut]
      simp [squeeze_cons_blank hc]
    | false =>
      rw [squeeze_cons hc, List.splitOn_cons_eq_if_modifyHead, ih,
        List.splitOn_cons_eq_if_modifyHead, hcut]
      split
      · rfl
      · simp [squeeze_cons hc]

end LayoutGuard.Text
