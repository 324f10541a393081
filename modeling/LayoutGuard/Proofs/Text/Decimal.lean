import Mathlib.Data.List.Basic
import LayoutGuard.Text.Decimal

/-!
Decimal notation is read back: the digits of a number are ASCII digits, there is
at least one of them, and their value is the number.
-/

namespace LayoutGuard.Text.Decimal

theorem isDigit_digit : ∀ n < 10, isDigit (digit n) = true := by decide

theorem digitValue_digit : ∀ n < 10, digitValue (digit n) = n := by decide

theorem isDigit_of_mem_render {n : Nat} {c : Char} (hc : c ∈ render n) : isDigit c = true := by
  fun_induction render n with
  | case1 n h =>
    rw [List.mem_singleton] at hc
    rw [hc]
    exact isDigit_digit n h
  | case2 n h ih =>
    rcases List.mem_append.mp hc with hc | hc
    · exact ih hc
    · rw [List.mem_singleton] at hc
      rw [hc]
      exact isDigit_digit (n % 10) (by omega)

theorem render_ne_nil (n : Nat) : render n ≠ [] := by
  rw [render]
  split <;> simp

theorem digit_ne_zero : ∀ n < 10, n ≠ 0 → digit n ≠ '0' := by decide

/-- Only zero is written with a zero in front. -/
theorem head?_render_ne_zero {n : Nat} (hn : n ≠ 0) : (render n).head? ≠ some '0' := by
  fun_induction render n with
  | case1 n h =>
    intro hzero
    exact digit_ne_zero n h hn (Option.some.inj hzero)
  | case2 n h ih =>
    rw [List.head?_append_of_ne_nil _ (render_ne_nil (n / 10))]
    exact ih (by omega)

theorem value_append_digit (cs : List Char) (c : Char) :
    value (cs ++ [c]) = 10 * value cs + digitValue c := by
  simp [value]

/-- A number is the value of its digits. -/
theorem value_render (n : Nat) : value (render n) = n := by
  fun_induction render n with
  | case1 n h => simpa [value] using digitValue_digit n h
  | case2 n h ih =>
    rw [value_append_digit, ih, digitValue_digit (n % 10) (by omega)]
    omega

@[simp] theorem toList_text (n : Nat) : (text n).toList = render n := by
  rw [text, String.toList_ofList]

/-- A number is read back from its digits. -/
theorem read?_render (n : Nat) : read? (render n) = some n := by
  have hall : (render n).all isDigit = true :=
    List.all_eq_true.mpr fun c hc => isDigit_of_mem_render hc
  have hne : (render n).isEmpty = false := by simpa using render_ne_nil n
  simp [read?, hall, hne, value_render]

theorem readBelow?_render {n bound : Nat} (h : n < bound) :
    readBelow? bound (render n) = some n := by
  simp [readBelow?, read?_render, h]

theorem render_injective {m n : Nat} (h : render m = render n) : m = n := by
  rw [← value_render m, h, value_render]

end LayoutGuard.Text.Decimal
