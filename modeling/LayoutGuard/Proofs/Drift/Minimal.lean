import Mathlib.Order.Bounds.Defs
import LayoutGuard.Proofs.Drift.Patch

/-!
Drifts are as short as they can be. The walk keeps as many elements as the longest common
subsequence has, and every script of edits keeps a common subsequence. So no script that
makes the regenerated lines of the committed ones takes fewer edits than the drift lists.
-/

namespace LayoutGuard

namespace Edits

variable {α : Type}

/-- A step of a script that is read along the old list. -/
inductive Step (α : Type)
  | keep
  | remove
  | insert (a : α)
deriving DecidableEq, Repr

/-- What a script makes of a list. It has to use up the whole list. -/
def applyScript? : List (Step α) → List α → Option (List α)
  | [], [] => some []
  | [], _ :: _ => none
  | .keep :: _, [] => none
  | .keep :: steps, a :: as => (applyScript? steps as).map (a :: ·)
  | .remove :: _, [] => none
  | .remove :: steps, _ :: as => applyScript? steps as
  | .insert b :: steps, as => (applyScript? steps as).map (b :: ·)

def cost : List (Step α) → Nat
  | [] => 0
  | .keep :: steps => cost steps
  | _ :: steps => cost steps + 1

/-- A script keeps a common subsequence and pays for all other elements. -/
theorem exists_kept {steps : List (Step α)} {old new : List α}
    (h : applyScript? steps old = some new) :
    ∃ s : List α, s.Sublist old ∧ s.Sublist new ∧
      cost steps + 2 * s.length = old.length + new.length := by
  fun_induction applyScript? steps old generalizing new with
  | case1 =>
    cases h
    exact ⟨[], List.Sublist.slnil, List.Sublist.slnil, rfl⟩
  | case2 => cases h
  | case3 => cases h
  | case4 steps a as ih =>
    obtain ⟨bs, hbs, rfl⟩ := Option.map_eq_some_iff.mp h
    obtain ⟨s, hs, ht, hcost⟩ := ih hbs
    refine ⟨a :: s, hs.cons_cons a, ht.cons_cons a, ?_⟩
    simp only [cost, List.length_cons]
    omega
  | case5 => cases h
  | case6 steps a as ih =>
    obtain ⟨s, hs, ht, hcost⟩ := ih h
    refine ⟨s, hs.cons a, ht, ?_⟩
    simp only [cost, List.length_cons]
    omega
  | case7 b steps as ih =>
    obtain ⟨bs, hbs, rfl⟩ := Option.map_eq_some_iff.mp h
    obtain ⟨s, hs, ht, hcost⟩ := ih hbs
    refine ⟨s, hs, ht.cons b, ?_⟩
    simp only [cost, List.length_cons]
    omega

theorem applyScript?_insert (front : List α) (steps : List (Step α)) (old : List α) :
    applyScript? (front.map .insert ++ steps) old = (applyScript? steps old).map (front ++ ·) := by
  induction front with
  | nil => simp
  | cons b front ih =>
    rw [List.map_cons, List.cons_append, applyScript?.eq_7, ih, Option.map_map]
    rfl

theorem cost_insert (front : List α) (steps : List (Step α)) :
    cost (front.map .insert ++ steps) = front.length + cost steps := by
  induction front with
  | nil => simp
  | cons b front ih =>
    rw [List.map_cons, List.cons_append, cost, ih, List.length_cons]
    · omega
    · rintro ⟨⟩

/-- Every common subsequence is kept by a script that pays for all other elements. -/
theorem exists_script {s old new : List α} (hs : s.Sublist old) (ht : s.Sublist new) :
    ∃ steps, applyScript? steps old = some new ∧
      cost steps + 2 * s.length = old.length + new.length := by
  induction hs generalizing new with
  | slnil =>
    refine ⟨new.map .insert ++ [], ?_, ?_⟩
    · rw [applyScript?_insert, applyScript?, Option.map_some, List.append_nil]
    · rw [cost_insert, cost, List.length_nil]
      omega
  | cons a _ ih =>
    obtain ⟨steps, happly, hcost⟩ := ih ht
    refine ⟨.remove :: steps, happly, ?_⟩
    simp only [cost, List.length_cons]
    omega
  | cons_cons a _ ih =>
    obtain ⟨before, rest, rfl, hmem, hrest⟩ := List.cons_sublist_iff.mp ht
    obtain ⟨front, back, rfl⟩ := List.append_of_mem hmem
    obtain ⟨steps, happly, hcost⟩ := ih ((hrest.trans (List.sublist_append_right back rest)))
    refine ⟨front.map .insert ++ .keep :: steps, ?_, ?_⟩
    · simp [applyScript?_insert, applyScript?, happly]
    · rw [cost_insert]
      simp only [cost, List.length_cons, List.length_append] at hcost ⊢
      omega

/-! What the walk lists -/

variable [DecidableEq α]

namespace Walked

variable {i j : Nat} {old new : List α} {e : Edits α}

/-- A step that removes an element leaves the common length as it is, and so does one that
adds an element. -/
theorem length_removed (h : Walked i j old new e) :
    e.removed.length + commonLength old new = old.length := by
  induction h with
  | end_old => simp
  | end_new i j old => simp [numbered]
  | keep a _ ih =>
    rw [commonLength, if_pos rfl, List.length_cons]
    omega
  | remove hne hle _ ih =>
    rw [commonLength, if_neg hne, max_eq_left hle, List.length_cons, List.length_cons]
    omega
  | add hne hlt _ ih =>
    rw [commonLength, if_neg hne, max_eq_right hlt.le]
    exact ih

/-- What an alignment keeps is as long as a longest common subsequence. -/
theorem length_kept (h : Walked i j old new e) :
    (unlisted (e.removed.map Prod.fst) i old).length = commonLength old new := by
  have hremoved := h.length_removed
  have hall := length_unlisted h.removed_sublist
  omega

theorem length_added (h : Walked i j old new e) :
    e.added.length + commonLength old new = new.length := by
  rw [← h.length_kept, h.unlisted_eq]
  exact length_unlisted h.added_sublist

end Walked

/-- The common length is the greatest length of a common subsequence. -/
theorem isGreatest_commonLength (old new : List α) :
    IsGreatest {n | ∃ s : List α, s.Sublist old ∧ s.Sublist new ∧ s.length = n}
      (commonLength old new) := by
  constructor
  · exact exists_common old new
  · rintro n ⟨s, hs, ht, rfl⟩
    exact length_le_commonLength hs ht

/-- Each element outside a longest common subsequence costs one step, and no script does with
fewer. -/
theorem isLeast_cost {old new : List α} {n : Nat}
    (h : n + 2 * commonLength old new = old.length + new.length) :
    IsLeast {k | ∃ steps, applyScript? steps old = some new ∧ cost steps = k} n := by
  constructor
  · obtain ⟨s, hs, ht, hlength⟩ := exists_common old new
    obtain ⟨steps, happly, hcost⟩ := exists_script hs ht
    exact ⟨steps, happly, by omega⟩
  · rintro k ⟨steps, happly, rfl⟩
    obtain ⟨s, hs, ht, hcost⟩ := exists_kept happly
    have hle := length_le_commonLength hs ht
    omega

end Edits

namespace Drift

/-- The lines that a drift does not list are as many on both sides, and as many as a common
subsequence of the lines can have; and no script that makes the regenerated lines of the
committed ones has fewer edits than the drift lists. -/
theorem compare_minimal (committed regenerated : String) :
    IsGreatest {n | ∃ s : List String, s.Sublist (linesOf committed) ∧
        s.Sublist (linesOf regenerated) ∧ s.length = n}
      (kept (compare committed regenerated).removed (linesOf committed)).length ∧
    (kept (compare committed regenerated).added (linesOf regenerated)).length =
      (kept (compare committed regenerated).removed (linesOf committed)).length ∧
    IsLeast {n | ∃ steps, Edits.applyScript? steps (linesOf committed) =
        some (linesOf regenerated) ∧ Edits.cost steps = n}
      ((compare committed regenerated).removed.length +
        (compare committed regenerated).added.length) := by
  have hwalked := walked_compare committed regenerated
  have hkept : (kept (compare committed regenerated).removed (linesOf committed)).length =
      Edits.commonLength (linesOf committed) (linesOf regenerated) := hwalked.length_kept
  refine ⟨?_, congrArg List.length hwalked.unlisted_eq.symm, Edits.isLeast_cost ?_⟩
  · rw [hkept]
    exact Edits.isGreatest_commonLength _ _
  · have hremoved := hwalked.length_removed
    have hadded := hwalked.length_added
    dsimp only at hremoved hadded
    omega

end Drift

end LayoutGuard
