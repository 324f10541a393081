import Mathlib.Data.List.Basic
import LayoutGuard.Json.Printer
import LayoutGuard.Json.Reader
import LayoutGuard.Proofs.Text.Decimal
import LayoutGuard.Proofs.Traversal

/-!
Strings and numbers of JSON are read back from their texts, whatever follows a string,
and whatever follows a number if it cannot go on into it.
-/

namespace LayoutGuard.Json

/-! Strings -/

theorem hexValue?_hexDigit : ∀ n < 16, Text.hexValue? (Text.Quoted.hexDigit n) = some n := by
  decide

theorem utf8Size_hexDigit : ∀ n < 16, (Text.Quoted.hexDigit n).utf8Size = 1 := by
  decide

/-- The escape of a control character is read back. -/
theorem readEscape_control {c : Char} (hc : c.toNat < 0x20) (rest : List Char) :
    readEscape ('u' :: '0' :: '0' :: Text.Quoted.hexDigit (c.toNat / 16) ::
      Text.Quoted.hexDigit (c.toNat % 16) :: rest) = .ok (c, 5) := by
  have hhigh := hexValue?_hexDigit (c.toNat / 16) (by omega)
  have hlow := hexValue?_hexDigit (c.toNat % 16) (by omega)
  have hsizes := utf8Size_hexDigit (c.toNat / 16) (by omega)
  have hsizes' := utf8Size_hexDigit (c.toNat % 16) (by omega)
  have hzero : Text.hexValue? '0' = some 0 := by decide
  have hzeroSize : ('0' : Char).utf8Size = 1 := by decide
  have hread : readHex4 ('0' :: '0' :: Text.Quoted.hexDigit (c.toNat / 16) ::
      Text.Quoted.hexDigit (c.toNat % 16) :: rest) = .ok c.toNat := by
    simp only [readHex4, Text.byteLength, List.take_succ_cons, List.take_zero, List.foldl_cons,
      List.foldl_nil, hsizes, hsizes', hzeroSize]
    simp [hzero, hhigh, hlow]
    omega
  have hsurrogate : isLowSurrogate c.toNat = false ∧ isHighSurrogate c.toNat = false := by
    simp only [isLowSurrogate, isHighSurrogate, Bool.and_eq_false_iff, decide_eq_false_iff_not]
    omega
  simp only [readEscape, readUnicode, hread, bind, Except.bind, hsurrogate.1, hsurrogate.2,
    Bool.false_eq_true, if_false]
  simp [pure, Except.pure, Except.map, Char.ofNat_toNat]

/-- An escaped character is read back. -/
theorem readString_escape {c : Char} {tail s rest : List Char}
    (htail : readString tail = .ok (s, rest)) :
    readString (escape c ++ tail) = .ok (c :: s, rest) := by
  have hescaped : ∀ (d : Char) (piece : List Char),
      readEscape (piece ++ tail) = .ok (d, piece.length) →
        readString ('\\' :: (piece ++ tail)) = .ok (d :: s, rest) := by
    intro d piece hpiece
    rw [readString]
    simp [hpiece, htail, bind, Except.bind, pure, Except.pure]
  unfold escape
  split
  · exact hescaped _ ['"'] rfl
  · exact hescaped _ ['\\'] rfl
  · exact hescaped _ ['b'] rfl
  · exact hescaped _ ['f'] rfl
  · exact hescaped _ ['n'] rfl
  · exact hescaped _ ['r'] rfl
  · exact hescaped _ ['t'] rfl
  · rename_i hquote hbackslash _ _ _ _ _
    split
    · rename_i hcontrol
      exact hescaped c ['u', '0', '0', _, _] (readEscape_control hcontrol tail)
    · rename_i hvisible
      rw [List.singleton_append, readString, if_neg hquote, if_neg hbackslash, if_neg hvisible,
        htail]
      rfl

/-- A text is read back from its escaped form, up to the closing quote. -/
theorem readString_flatMap_escape (s rest : List Char) :
    readString (s.flatMap escape ++ '"' :: rest) = .ok (s, rest) := by
  induction s with
  | nil => simp [readString]
  | cons c s ih =>
    rw [List.flatMap_cons, List.append_assoc]
    exact readString_escape ih

/-! Numbers -/

/-- A text that no number goes on into. -/
def NumberEnd (rest : List Char) : Prop :=
  ∀ c ∈ rest.head?, Text.isDigit c = false ∧ c ≠ '.' ∧ c ≠ 'e' ∧ c ≠ 'E'

theorem NumberEnd.no_digit {rest : List Char} (h : NumberEnd rest) :
    rest.head?.any Text.isDigit = false := by
  cases rest with
  | nil => rfl
  | cons c rest => exact (h c rfl).1

theorem readTail_natural {n : Nat} {rest : List Char} (hrest : NumberEnd rest) :
    readTail false n rest = .ok (.natural n, rest) := by
  cases rest with
  | nil => rfl
  | cons c rest =>
    obtain ⟨-, hpoint, he, hE⟩ := hrest c rfl
    simp [readTail, hpoint, he, hE]

theorem le_foldl_digits (digits : List Char) (n : Nat) :
    n ≤ digits.foldl (fun n c => 10 * n + Text.Decimal.digitValue c) n := by
  induction digits generalizing n with
  | nil => exact Nat.le_refl n
  | cons c digits ih =>
    have := ih (10 * n + Text.Decimal.digitValue c)
    rw [List.foldl_cons]
    omega

/-- Digits whose number fits a machine word are all taken. -/
theorem absorb_append {digits rest : List Char} (hdigits : ∀ c ∈ digits, Text.isDigit c = true)
    (hrest : NumberEnd rest) (n count : Nat)
    (hfit : digits.foldl (fun n c => 10 * n + Text.Decimal.digitValue c) n ≤ wordMax) :
    absorb n count (digits ++ rest) =
      (digits.foldl (fun n c => 10 * n + Text.Decimal.digitValue c) n,
        count + digits.length, rest) := by
  induction digits generalizing n count with
  | nil =>
    cases rest with
    | nil => rfl
    | cons c rest => simp [absorb, (hrest c rfl).1]
  | cons c digits ih =>
    have hnext : 10 * n + Text.Decimal.digitValue c ≤ wordMax :=
      Nat.le_trans (le_foldl_digits digits _) hfit
    have hc := hdigits c List.mem_cons_self
    rw [List.cons_append, absorb]
    simp only [hc, hnext, decide_true, Bool.and_self, if_true]
    rw [ih (fun d hd => hdigits d (List.mem_cons_of_mem c hd)) _ _ hfit, List.foldl_cons,
      List.length_cons]
    congr 2
    omega

/-- A number that fits a machine word is read back from its digits. -/
theorem readNumber_render {n : Nat} (hn : n ≤ wordMax) {rest : List Char}
    (hrest : NumberEnd rest) :
    readNumber false (Text.Decimal.render n ++ rest) = .ok (.natural n, rest) := by
  have hvalue := Text.Decimal.value_render n
  have hdigit : ∀ c ∈ Text.Decimal.render n, Text.isDigit c = true :=
    fun c => Text.Decimal.isDigit_of_mem_render
  by_cases hzero : n = 0
  · subst hzero
    have hrender : Text.Decimal.render 0 = ['0'] := by
      rw [Text.Decimal.render]
      rfl
    rw [hrender, List.singleton_append, readNumber]
    simp only [if_true, hrest.no_digit, Bool.false_eq_true, if_false, readTail_natural hrest]
  · have hlead := Text.Decimal.head?_render_ne_zero hzero
    revert hvalue hdigit hlead
    cases Text.Decimal.render n with
    | nil =>
      intro hvalue
      exact absurd hvalue.symm hzero
    | cons c cs =>
      intro hvalue hdigit hlead
      have hc : c ≠ '0' := fun h => hlead (congrArg some h)
      have hfold : cs.foldl (fun n c => 10 * n + Text.Decimal.digitValue c)
          (Text.Decimal.digitValue c) = n := by
        simpa [Text.Decimal.value] using hvalue
      rw [List.cons_append, readNumber, if_neg hc, if_pos (hdigit c List.mem_cons_self),
        absorb_append (fun d hd => hdigit d (List.mem_cons_of_mem c hd)) hrest _ _
          (by rw [hfold]; exact hn), hfold]
      simp only [hrest.no_digit, Bool.false_eq_true, if_false, readTail_natural hrest]

/-! Scalars behind white space -/

@[simp] theorem skipSpace_space (cs : List Char) : skipSpace (' ' :: cs) = skipSpace cs := rfl

theorem isSpace_of_isDigit {c : Char} (hc : Text.isDigit c = true) : isSpace c = false := by
  by_contra hspace
  simp only [isSpace, Bool.not_eq_false, Bool.or_eq_true, decide_eq_true_eq] at hspace
  rcases hspace with ((rfl | rfl) | rfl) | rfl <;> revert hc <;> decide

theorem skipSpace_of_not_space {c : Char} (hc : isSpace c = false) (cs : List Char) :
    skipSpace (c :: cs) = c :: cs := by
  rw [skipSpace, List.dropWhile_cons_of_neg (by simp [hc])]

@[simp] theorem skipSpace_newline (level : Nat) (cs : List Char) :
    skipSpace (newline level ++ cs) = skipSpace cs := by
  rw [skipSpace, List.dropWhile_append_of_pos]
  · rfl
  · intro c hc
    rw [newline, List.mem_cons] at hc
    rcases hc with rfl | hc
    · rfl
    · rw [List.eq_of_mem_replicate hc]
      rfl

/-- A text is read back from its quoted form. -/
theorem text_quote (s : String) (rest : List Char) :
    text (' ' :: (quote s ++ rest)) = .ok (s, rest) := by
  have hquote : quote s ++ rest = '"' :: (s.toList.flatMap escape ++ '"' :: rest) := by
    simp [quote]
  rw [text, skipSpace_space, hquote, skipSpace_of_not_space (by decide)]
  simp only [readString_flatMap_escape, Except.map, String.ofList_toList]

theorem optionalText_quote (s : String) (rest : List Char) :
    optionalText (' ' :: (quote s ++ rest)) = .ok (some s, rest) := by
  have htext := text_quote s rest
  rw [quote, List.cons_append, List.cons_append] at htext ⊢
  rw [text, skipSpace_space, skipSpace_of_not_space (by decide)] at htext
  rw [optionalText, skipSpace_space, skipSpace_of_not_space (by decide)]
  change (text _).map _ = _
  rw [text, skipSpace_of_not_space (by decide), htext]
  rfl

/-- A machine word is read back from its digits. -/
theorem word_render (n : UInt64) {rest : List Char} (hrest : NumberEnd rest) :
    word (' ' :: (Text.Decimal.render n.toNat ++ rest)) = .ok (n, rest) := by
  have hn : n.toNat ≤ wordMax := Nat.le_of_lt_succ n.toNat_lt
  have hread := readNumber_render hn hrest
  have hdigit : ∀ c ∈ Text.Decimal.render n.toNat, Text.isDigit c = true :=
    fun c => Text.Decimal.isDigit_of_mem_render
  have hne := Text.Decimal.render_ne_nil n.toNat
  revert hread hdigit hne
  cases Text.Decimal.render n.toNat with
  | nil =>
    intro _ _ hne
    exact absurd rfl hne
  | cons c cs =>
    intro hread hdigit _
    have hc := hdigit c List.mem_cons_self
    have hminus : c ≠ '-' := by
      rintro rfl
      revert hc
      decide
    rw [word, skipSpace_space, List.cons_append, skipSpace_of_not_space (isSpace_of_isDigit hc)]
    simp only [if_neg hminus, if_pos hc]
    rw [List.cons_append] at hread
    rw [hread]
    simp [bind, Except.bind, toWord]

end LayoutGuard.Json
