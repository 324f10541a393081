import Mathlib.Data.List.Basic
import Mathlib.Data.Option.Basic
import LayoutGuard.Odin
import LayoutGuard.Proofs.Text.Decimal
import LayoutGuard.Proofs.Text.Reading

/-!
Size assertions are read back from their lines, so different assertions about
identifiers have different lines.
-/

namespace LayoutGuard.Odin

theorem isNameRest_of_mem {name : String} (h : isIdentifier name = true) {c : Char}
    (hc : c ∈ name.toList) : Text.isNameRest c = true := by
  simp only [isIdentifier, Bool.and_eq_true] at h
  exact Text.isNameRest_of_mem_name h.1 hc

namespace SizeAssertion

theorem toList_text (a : SizeAssertion) :
    a.text.toList = "#assert(size_of(".toList ++ (a.name.toList ++ (") == ".toList ++
      (Text.Decimal.render a.size.toNat ++ [')']))) := by
  unfold SizeAssertion.text
  simp only [String.toList_append, Text.Decimal.toList_text, List.append_assoc]
  rfl

/-- An assertion is read back from its line. -/
theorem ofLine?_text {a : SizeAssertion} (ha : isIdentifier a.name = true) :
    ofLine? a.text.toList = some a := by
  have hname : ∀ c ∈ a.name.toList, Text.isNameRest c = true := fun c hc =>
    isNameRest_of_mem ha hc
  have hdigits : ∀ c ∈ Text.Decimal.render a.size.toNat, Text.isDigit c = true := fun c hc =>
    Text.Decimal.isDigit_of_mem_render hc
  have hclose : ") == ".toList = ')' :: " == ".toList := rfl
  have hsize : Text.Decimal.readBelow? UInt64.size (Text.Decimal.render a.size.toNat) =
      some a.size.toNat := Text.Decimal.readBelow?_render a.size.toNat_lt
  rw [toList_text, ofLine?, Text.literal?_append]
  simp only [Option.bind_eq_bind, Option.bind_some]
  rw [hclose, List.cons_append, Text.takeWhile_stop hname (by decide),
    Text.dropWhile_stop hname (by decide), ← List.cons_append, ← hclose, Text.literal?_append]
  simp only [Option.bind_some]
  rw [Text.takeWhile_stop hdigits (by decide), Text.dropWhile_stop hdigits (by decide), hsize]
  simp

/-- Assertions with valid names have the same line only when they are the same. -/
theorem text_injective {a b : SizeAssertion} (ha : isIdentifier a.name = true)
    (hb : isIdentifier b.name = true) (h : a.text = b.text) : a = b := by
  have hread := ofLine?_text ha
  rw [h, ofLine?_text hb] at hread
  exact (Option.some.inj hread).symm

end SizeAssertion

end LayoutGuard.Odin
