import Mathlib.Data.List.Basic
import LayoutGuard.Proofs.Text.Reading

/-!
The places of a text. A place is where the text splits in front of a character, and each
such split is one place. A search goes on behind a piece in which it finds nothing.
-/

namespace LayoutGuard.Text

variable {before : Option Char} {cs : List Char} {place : Option Char × List Char}

theorem getLast?_cons_or (c : Char) (u : List Char) (before : Option Char) :
    (c :: u).getLast?.or before = u.getLast?.or (some c) := by
  cases hu : u.getLast? <;> simp [List.getLast?_cons, hu]

theorem mem_places (before : Option Char) (u : List Char) (c : Char) (cs : List Char) :
    (u.getLast?.or before, c :: cs) ∈ places before (u ++ c :: cs) := by
  induction u generalizing before with
  | nil => exact List.mem_cons_self
  | cons d u ih =>
    rw [getLast?_cons_or, List.cons_append, places]
    exact List.mem_cons_of_mem _ (ih (some d))

/-- A place splits the text. -/
theorem exists_split_of_mem_places (h : place ∈ places before cs) :
    ∃ u c v, cs = u ++ c :: v ∧ place = (u.getLast?.or before, c :: v) := by
  induction cs generalizing before with
  | nil => cases h
  | cons c cs ih =>
    rcases List.mem_cons.mp h with rfl | h
    · exact ⟨[], c, cs, rfl, rfl⟩
    · obtain ⟨u, d, v, rfl, rfl⟩ := ih h
      exact ⟨c :: u, d, v, rfl, by rw [getLast?_cons_or]⟩

theorem mem_places_suffix (h : place ∈ places before cs) : place.2 <:+ cs := by
  obtain ⟨u, c, v, rfl, rfl⟩ := exists_split_of_mem_places h
  exact List.suffix_append u (c :: v)

/-- A search of all places goes on behind a piece where nothing is found. -/
theorem findSome?_places_append {α : Type} {f : List Char → Option α} {u : List Char}
    (rest : List Char) (hu : ∀ v, v ≠ [] → v <:+ u → f (v ++ rest) = none)
    (before : Option Char) :
    (places before (u ++ rest)).findSome? (fun p => f p.2) =
      (places (u.getLast?.or before) rest).findSome? fun p => f p.2 := by
  induction u generalizing before with
  | nil => rfl
  | cons c u ih =>
    have hfirst : f (c :: (u ++ rest)) = none := hu (c :: u) (List.cons_ne_nil c u) List.suffix_rfl
    rw [List.cons_append, places, List.findSome?_cons, hfirst, getLast?_cons_or]
    exact ih (fun v hnil hv => hu v hnil (hv.trans (List.suffix_cons c u))) (some c)

/-- A word whose first letter does not come back in it is not read across that letter. -/
theorem literal?_append_first {word more : String} {c : Char}
    (hword : word.toList = c :: more.toList) (hc : c ∉ more.toList) {u : List Char} (hu : u ≠ [])
    (rest : List Char) :
    literal? word (u ++ c :: rest) = (literal? word u).map (· ++ c :: rest) := by
  obtain ⟨d, u, rfl⟩ := List.exists_cons_of_ne_nil hu
  have hmore := literal?_append_stop hc u rest
  rw [literal?] at hmore
  rw [List.cons_append, literal?, literal?, hword, List.isPrefixOf?, List.isPrefixOf?, hmore]
  split
  · rfl
  · rfl

end LayoutGuard.Text
