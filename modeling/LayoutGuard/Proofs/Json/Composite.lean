import Mathlib.Data.List.Basic
import LayoutGuard.Proofs.Json.Scalar

/-!
Objects and lists as the printer lays them out are read field by field and item by
item. A reader that takes back what is printed for one item takes back a list of them.
-/

namespace LayoutGuard.Json

/-! Keys -/

/-- A quoted key or text is read back behind its opening quote. -/
theorem readString_quote (k : String) (rest : List Char) :
    ∃ inner, quote k ++ rest = '"' :: inner ∧ readString inner = .ok (k.toList, rest) :=
  ⟨k.toList.flatMap escape ++ '"' :: rest, by simp [quote], readString_flatMap_escape _ _⟩

theorem nextKey_first (level : Nat) (k : String) (rest : List Char) :
    nextKey false (newline level ++ (quote k ++ rest)) = .ok (some (k.toList, rest)) := by
  obtain ⟨inner, hquote, hread⟩ := readString_quote k rest
  rw [nextKey, skipSpace_newline, hquote, skipSpace_of_not_space (by decide)]
  simp [hread, Except.map]

theorem nextKey_later (level : Nat) (k : String) (rest : List Char) :
    nextKey true (',' :: (newline level ++ (quote k ++ rest))) = .ok (some (k.toList, rest)) := by
  obtain ⟨inner, hquote, hread⟩ := readString_quote k rest
  rw [nextKey, skipSpace_of_not_space (by decide)]
  simp [hquote, skipSpace_of_not_space, isSpace, hread, Except.map]

theorem nextKey_close (later : Bool) (level : Nat) (rest : List Char) :
    nextKey later (newline level ++ '\x7d' :: rest) = .ok none := by
  rw [nextKey, skipSpace_newline, skipSpace_of_not_space (by decide)]
  rfl

theorem afterBrace_close (level : Nat) (rest : List Char) :
    afterBrace (newline level ++ '\x7d' :: rest) = rest := by
  rw [afterBrace, skipSpace_newline, skipSpace_of_not_space (by decide)]
  rfl

section Fields

variable {σ : Type} {field : String → σ → Reader σ} {fuel level : Nat} {s t : σ}
  {k : String} {cs rest : List Char}

theorem fields_first (hfield : field k s cs = .ok (t, rest)) :
    fields field (fuel + 1) false s (newline level ++ (quote k ++ cs)) =
      fields field fuel true t rest := by
  rw [fields, nextKey_first]
  simp only [bind, Except.bind, String.ofList_toList, hfield]

/-- A further field is read, and the reading goes on behind it. -/
theorem fields_later (hfield : field k s cs = .ok (t, rest)) :
    fields field (fuel + 1) true s (',' :: (newline level ++ (quote k ++ cs))) =
      fields field fuel true t rest := by
  rw [fields, nextKey_later]
  simp only [bind, Except.bind, String.ofList_toList, hfield]

theorem fields_close (later : Bool) :
    fields field (fuel + 1) later s (newline level ++ '\x7d' :: rest) = .ok (s, rest) := by
  rw [fields, nextKey_close]
  simp only [bind, Except.bind, afterBrace_close]
  rfl

theorem colon_cons (cs : List Char) : colon (':' :: cs) = .ok cs := by
  rw [colon, skipSpace_of_not_space (by decide)]
  rfl

end Fields

/-! Items -/

/-- Every value begins with a character that neither is white space nor closes a list. -/
theorem exists_render_eq_cons (v : Value) (level : Nat) :
    ∃ c cs, v.render level = c :: cs ∧ isSpace c = false ∧ c ≠ ']' := by
  cases v with
  | text s => exact ⟨'"', _, rfl, by decide, by decide⟩
  | word n =>
    cases hrender : Text.Decimal.render n.toNat with
    | nil => exact absurd hrender (Text.Decimal.render_ne_nil _)
    | cons c cs =>
      have hc : Text.isDigit c = true :=
        Text.Decimal.isDigit_of_mem_render (n := n.toNat) (by simp [hrender])
      refine ⟨c, cs, by rw [Value.render, hrender], isSpace_of_isDigit hc, ?_⟩
      rintro rfl
      revert hc
      decide
  | list items => cases items <;> exact ⟨'[', _, rfl, by decide, by decide⟩
  | object fields =>
    cases fields with
    | nil => exact ⟨'\x7b', _, rfl, by decide, by decide⟩
    | cons f fs => exact ⟨'\x7b', _, rfl, by decide, by decide⟩

theorem nextItem_first (level : Nat) (v : Value) (rest : List Char) :
    nextItem false (newline level ++ (v.render level ++ rest)) =
      .ok (some (v.render level ++ rest)) := by
  obtain ⟨c, cs, hrender, hspace, hclose⟩ := exists_render_eq_cons v level
  rw [nextItem, skipSpace_newline, hrender, List.cons_append, skipSpace_of_not_space hspace]
  simp [hclose]

theorem nextItem_later (level : Nat) (v : Value) (rest : List Char) :
    nextItem true (',' :: (newline level ++ (v.render level ++ rest))) =
      .ok (some (v.render level ++ rest)) := by
  obtain ⟨c, cs, hrender, hspace, hclose⟩ := exists_render_eq_cons v level
  rw [nextItem, hrender, List.cons_append, skipSpace_of_not_space (by decide)]
  simp [skipSpace_of_not_space hspace, hclose]

theorem nextItem_close (later : Bool) (level : Nat) (rest : List Char) :
    nextItem later (newline level ++ ']' :: rest) = .ok none := by
  rw [nextItem, skipSpace_newline, skipSpace_of_not_space (by decide)]
  rfl

theorem afterBracket_close (level : Nat) (rest : List Char) :
    afterBracket (newline level ++ ']' :: rest) = rest := by
  rw [afterBracket, skipSpace_newline, skipSpace_of_not_space (by decide)]
  rfl

section Items

variable {α : Type} {item : Reader α} {value : α → Value} {level : Nat}

/-- A printed list is read back when each of its items is. -/
theorem items_renderItems
    (hitem : ∀ a rest, item ((value a).render level ++ rest) = .ok (a, rest)) (outer : Nat)
    (rest : List Char) (as : List α) {fuel : Nat} (hfuel : as.length < fuel) :
    items item fuel true (renderItems level (as.map value) ++ (newline outer ++ ']' :: rest)) =
      .ok (as, rest) := by
  induction as generalizing fuel with
  | nil =>
    obtain ⟨fuel, rfl⟩ := Nat.exists_eq_add_one.mpr hfuel
    rw [List.map_nil, renderItems, List.nil_append, items, nextItem_close]
    simp only [bind, Except.bind, afterBracket_close]
    rfl
  | cons a as ih =>
    obtain ⟨fuel, rfl⟩ := Nat.exists_eq_add_one.mpr (Nat.zero_lt_of_lt hfuel)
    have hrest := ih (Nat.lt_of_succ_lt_succ hfuel)
    rw [List.map_cons, renderItems, items]
    simp only [List.cons_append, List.append_assoc, nextItem_later, bind, Except.bind, hitem,
      hrest]
    rfl

theorem length_le_renderItems (level : Nat) (vs : List Value) :
    vs.length ≤ (renderItems level vs).length := by
  induction vs with
  | nil => exact Nat.zero_le _
  | cons v vs ih =>
    rw [renderItems]
    simp only [List.length_cons, List.length_append]
    omega

/-- A list of values of one kind is read back. -/
theorem listOf_render
    (hitem : ∀ a rest, item ((value a).render (level + 1) ++ rest) = .ok (a, rest))
    (as : List α) (rest : List Char) :
    listOf item (' ' :: ((Value.list (as.map value)).render level ++ rest)) = .ok (as, rest) := by
  rw [listOf, skipSpace_space]
  cases as with
  | nil =>
    rw [List.map_nil, Value.render, List.cons_append, skipSpace_of_not_space (by decide)]
    rfl
  | cons a as =>
    rw [List.map_cons, Value.render]
    simp only [List.cons_append, List.append_assoc, List.nil_append]
    rw [skipSpace_of_not_space (by decide)]
    simp only [items, nextItem_first, bind, Except.bind, hitem]
    rw [items_renderItems hitem]
    · rfl
    · have hlength := length_le_renderItems (level + 1) (as.map value)
      simp only [List.length_map, List.length_append, List.length_cons] at hlength ⊢
      omega

end Items

end LayoutGuard.Json
