import Mathlib.Data.List.InsertIdx
import LayoutGuard.Drift
import LayoutGuard.Proofs.Drift.Alignment

/-!
The drift as a patch. The walk lists elements of both lists under their own numbers and
in rising order, and the elements that it does not list agree on both sides. So the old
lines without the removed ones, with each added line put in at its number, are the new
lines.
-/

namespace LayoutGuard

namespace Edits

/-! Listed elements -/

section Listing

variable {α β : Type}

def numbered (n : Nat) (as : List α) : List (Nat × α) :=
  (as.zipIdx n).map Prod.swap

theorem numbered_cons (n : Nat) (a : α) (as : List α) :
    numbered n (a :: as) = (n, a) :: numbered (n + 1) as := rfl

/-- The elements whose numbers are not among the given ones. -/
def unlisted (numbers : List Nat) (n : Nat) : List α → List α
  | [] => []
  | a :: as =>
    if n ∈ numbers then unlisted numbers (n + 1) as else a :: unlisted numbers (n + 1) as

/-- Puts each element in at its number, in the order that is given. -/
def inserted (n : Nat) (added : List (Nat × α)) (as : List α) : List α :=
  added.foldl (fun bs l => bs.insertIdx (l.1 - n) l.2) as

theorem le_of_mem_numbered {n : Nat} {as : List α} {l : Nat × α} (h : l ∈ numbered n as) :
    n ≤ l.1 := by
  obtain ⟨p, hp, rfl⟩ := List.mem_map.mp h
  exact List.le_snd_of_mem_zipIdx hp

/-- Numbers rise along a list. -/
theorem rising_numbered (n : Nat) (as : List α) :
    ((numbered n as).map Prod.fst).Pairwise (· < ·) := by
  have hnumbers : (numbered n as).map Prod.fst = List.range' n as.length := by
    rw [numbered, List.map_map]
    exact List.zipIdx_map_snd n as
  rw [hnumbers]
  exact List.pairwise_lt_range'

theorem getElem?_of_mem_numbered {n : Nat} {as : List α} {l : Nat × α} (h : l ∈ numbered n as) :
    as[l.1 - n]? = some l.2 := by
  obtain ⟨p, hp, rfl⟩ := List.mem_map.mp h
  exact List.mem_zipIdx_iff_le_and_getElem?_sub.mp hp |>.2

theorem numbered_map (f : α → β) (n : Nat) (as : List α) :
    numbered n (as.map f) = (numbered n as).map (Prod.map id f) := by
  simp [numbered, List.zipIdx_map, Function.comp_def]

theorem unlisted_congr {xs ys : List Nat} {n : Nat} (h : ∀ k, n ≤ k → (k ∈ xs ↔ k ∈ ys))
    (as : List α) : unlisted xs n as = unlisted ys n as := by
  induction as generalizing n with
  | nil => rfl
  | cons a as ih =>
    rw [unlisted, unlisted, ih fun k hk => h k (by omega)]
    exact if_congr (h n le_rfl) rfl rfl

theorem unlisted_cons_self (numbers : List Nat) (n : Nat) (a : α) (as : List α) :
    unlisted (n :: numbers) n (a :: as) = unlisted numbers (n + 1) as := by
  rw [unlisted, if_pos List.mem_cons_self]
  refine unlisted_congr (fun k hk => ?_) as
  have hne : k ≠ n := by omega
  simp [hne]

section Sublist

variable {listed : List (Nat × α)} {n : Nat} {as : List α}

/-- Numbers of later elements do not list the first one. -/
theorem unlisted_cons (h : listed.Sublist (numbered (n + 1) as)) (a : α) :
    unlisted (listed.map Prod.fst) n (a :: as) =
      a :: unlisted (listed.map Prod.fst) (n + 1) as := by
  rw [unlisted, if_neg]
  intro hmem
  obtain ⟨l, hl, hn⟩ := List.mem_map.mp hmem
  have hle := le_of_mem_numbered (h.subset hl)
  omega

/-- What is listed and what is not make up the whole list. -/
theorem length_unlisted (h : listed.Sublist (numbered n as)) :
    listed.length + (unlisted (listed.map Prod.fst) n as).length = as.length := by
  induction as generalizing listed n with
  | nil =>
    rw [List.sublist_nil.mp h]
    rfl
  | cons a as ih =>
    rw [numbered_cons, List.sublist_cons_iff] at h
    rcases h with h | ⟨rest, rfl, h⟩
    · rw [unlisted_cons h, List.length_cons, List.length_cons, ← ih h]
      omega
    · have hrest := ih h
      rw [List.map_cons, unlisted_cons_self, List.length_cons, List.length_cons]
      dsimp only
      omega

/-- Nothing is left where all elements are listed. -/
theorem unlisted_numbered (n : Nat) (as : List α) :
    unlisted ((numbered n as).map Prod.fst) n as = [] := by
  have hlength := length_unlisted (List.Sublist.refl (numbered n as))
  have hall : (numbered n as).length = as.length := by simp [numbered]
  exact List.length_eq_zero_iff.mp (by omega)

theorem inserted_cons (h : ∀ l ∈ listed, n < l.1) (a : α) (bs : List α) :
    inserted n listed (a :: bs) = a :: inserted (n + 1) listed bs := by
  induction listed generalizing bs with
  | nil => rfl
  | cons l rest ih =>
    have hl : n < l.1 := h l List.mem_cons_self
    have hnumber : l.1 - n = (l.1 - (n + 1)) + 1 := by omega
    have hfirst : (a :: bs).insertIdx (l.1 - n) l.2 = a :: bs.insertIdx (l.1 - (n + 1)) l.2 := by
      rw [hnumber, List.insertIdx_succ_cons]
    calc inserted n (l :: rest) (a :: bs)
        = inserted n rest (a :: bs.insertIdx (l.1 - (n + 1)) l.2) := by
          rw [inserted, List.foldl_cons, hfirst]
          rfl
      _ = a :: inserted (n + 1) rest (bs.insertIdx (l.1 - (n + 1)) l.2) :=
          ih (fun m hm => h m (List.mem_cons_of_mem l hm)) _

/-- What is listed goes back to its place among the others. -/
theorem inserted_unlisted (h : listed.Sublist (numbered n as)) :
    inserted n listed (unlisted (listed.map Prod.fst) n as) = as := by
  induction as generalizing listed n with
  | nil =>
    rw [List.sublist_nil.mp h]
    rfl
  | cons a as ih =>
    rw [numbered_cons, List.sublist_cons_iff] at h
    have hlater {rest : List (Nat × α)} (hrest : rest.Sublist (numbered (n + 1) as)) :
        ∀ l ∈ rest, n < l.1 := fun l hl => le_of_mem_numbered (hrest.subset hl)
    rcases h with h | ⟨rest, rfl, h⟩
    · rw [unlisted_cons h, inserted_cons (hlater h), ih h]
    · rw [List.map_cons, unlisted_cons_self, inserted, List.foldl_cons, Nat.sub_self,
        List.insertIdx_zero]
      exact (inserted_cons (hlater h) a _).trans (congrArg (a :: ·) (ih h))

end Sublist

end Listing

/-! The walk as a relation -/

variable {α β : Type} [DecidableEq α] [DecidableEq β]

/-- What the walk from two places lists, step by step. -/
inductive Walked : Nat → Nat → List α → List α → Edits α → Prop
  | end_old (i j : Nat) (new : List α) : Walked i j [] new ⟨[], numbered j new⟩
  | end_new (i j : Nat) (old : List α) : Walked i j old [] ⟨numbered i old, []⟩
  | keep {i j : Nat} {old new : List α} {e : Edits α} (a : α)
      (h : Walked (i + 1) (j + 1) old new e) : Walked i j (a :: old) (a :: new) e
  | remove {i j : Nat} {a b : α} {old new : List α} {e : Edits α} (hne : a ≠ b)
      (hle : commonLength (a :: old) new ≤ commonLength old (b :: new))
      (h : Walked (i + 1) j old (b :: new) e) :
      Walked i j (a :: old) (b :: new) ⟨(i, a) :: e.removed, e.added⟩
  | add {i j : Nat} {a b : α} {old new : List α} {e : Edits α} (hne : a ≠ b)
      (hlt : commonLength old (b :: new) < commonLength (a :: old) new)
      (h : Walked i (j + 1) (a :: old) new e) :
      Walked i j (a :: old) (b :: new) ⟨e.removed, (j, b) :: e.added⟩

/-- The walk through the table is an alignment of both lists. -/
theorem walked_walkFrom (i j : Nat) (old new : List α) :
    Walked i j old new (walkFrom i j old new) := by
  induction old, new using commonLength.induct generalizing i j with
  | case1 new =>
    rw [walkFrom_nil_left]
    exact .end_old i j new
  | case2 a old =>
    rw [walkFrom_nil_right]
    exact .end_new i j (a :: old)
  | case3 old a new ih =>
    rw [walkFrom_same]
    exact .keep a (ih (i + 1) (j + 1))
  | case4 a old b new hab ihOld ihNew =>
    rcases le_or_gt (commonLength (a :: old) new) (commonLength old (b :: new)) with hle | hlt
    · rw [walkFrom_remove i j hab hle]
      exact .remove hab hle (ihOld (i + 1) j)
    · rw [walkFrom_add i j hab hlt]
      exact .add hab hlt (ihNew i (j + 1))

theorem commonLength_map {f : α → β} (hf : f.Injective) (as bs : List α) :
    commonLength (as.map f) (bs.map f) = commonLength as bs := by
  induction as, bs using commonLength.induct with
  | case1 bs => simp
  | case2 a as => simp
  | case3 as a bs ih =>
    rw [List.map_cons, List.map_cons, commonLength, commonLength, if_pos rfl, if_pos rfl, ih]
  | case4 a as b bs hab ihOld ihNew =>
    rw [List.map_cons] at ihOld ihNew
    rw [List.map_cons, List.map_cons, commonLength, commonLength, if_neg hab, if_neg (hf.ne hab),
      ihOld, ihNew]

namespace Walked

variable {i j : Nat} {old new : List α} {e : Edits α}

/-- The walk does not depend on what tells the elements apart. -/
theorem map {f : α → β} (hf : f.Injective) (h : Walked i j old new e) :
    Walked i j (old.map f) (new.map f)
      ⟨e.removed.map (Prod.map id f), e.added.map (Prod.map id f)⟩ := by
  induction h with
  | end_old i j new =>
    rw [← numbered_map]
    exact .end_old i j _
  | end_new i j old =>
    rw [← numbered_map]
    exact .end_new i j _
  | keep a _ ih => exact .keep (f a) ih
  | @remove i j a b old new e hne hle _ ih =>
    rw [← commonLength_map hf, ← commonLength_map hf old] at hle
    exact .remove (hf.ne hne) hle ih
  | @add i j a b old new e hne hlt _ ih =>
    rw [← commonLength_map hf, ← commonLength_map hf (a :: old)] at hlt
    exact .add (hf.ne hne) hlt ih

/-- Removed elements carry the numbers that they have in the old list. -/
theorem removed_sublist (h : Walked i j old new e) : e.removed.Sublist (numbered i old) := by
  induction h with
  | end_old => exact List.Sublist.slnil
  | end_new => exact List.Sublist.refl _
  | keep a _ ih => exact ih.cons _
  | remove _ _ _ ih => exact ih.cons_cons _
  | add _ _ _ ih => exact ih

/-- Added elements carry the numbers that they have in the new list. -/
theorem added_sublist (h : Walked i j old new e) : e.added.Sublist (numbered j new) := by
  induction h with
  | end_old => exact List.Sublist.refl _
  | end_new => exact List.Sublist.slnil
  | keep a _ ih => exact ih.cons _
  | remove _ _ _ ih => exact ih
  | add _ _ _ ih => exact ih.cons_cons _

/-- Both lists keep the same elements. -/
theorem unlisted_eq (h : Walked i j old new e) :
    unlisted (e.removed.map Prod.fst) i old = unlisted (e.added.map Prod.fst) j new := by
  induction h with
  | end_old i j new => exact (unlisted_numbered j new).symm
  | end_new i j old => exact unlisted_numbered i old
  | keep a h ih => rw [unlisted_cons h.removed_sublist, unlisted_cons h.added_sublist, ih]
  | remove _ _ _ ih => rw [List.map_cons, unlisted_cons_self, ih]
  | add _ _ _ ih => rw [List.map_cons, unlisted_cons_self, ih]

end Walked

end Edits

namespace Drift

def linesOf (document : String) : List String :=
  (Text.lines document.toList).map String.ofList

/-- A comparison of documents is an alignment of their lines. -/
theorem walked_compare (committed regenerated : String) :
    Edits.Walked 1 1 (linesOf committed) (linesOf regenerated)
      ⟨(compare committed regenerated).removed, (compare committed regenerated).added⟩ :=
  (Edits.walked_walkFrom 1 1 _ _).map fun _ _ h => String.ofList_injective h

/-- Some lines of a document under their line numbers, in rising order. -/
structure Lists (lines : List String) (listed : List (Nat × String)) : Prop where
  rising : (listed.map Prod.fst).Pairwise (· < ·)
  within : ∀ l ∈ listed, 1 ≤ l.1 ∧ l.1 ≤ lines.length
  text : ∀ l ∈ listed, lines[l.1 - 1]? = some l.2

theorem lists_of_sublist {lines : List String} {listed : List (Nat × String)}
    (h : listed.Sublist (Edits.numbered 1 lines)) : Lists lines listed where
  rising := (Edits.rising_numbered 1 lines).sublist (h.map Prod.fst)
  within l hl := by
    have hfirst := Edits.le_of_mem_numbered (h.subset hl)
    obtain ⟨hlast, -⟩ := List.getElem?_eq_some_iff.mp (Edits.getElem?_of_mem_numbered (h.subset hl))
    exact ⟨hfirst, by omega⟩
  text l hl := Edits.getElem?_of_mem_numbered (h.subset hl)

def kept (listed : List (Nat × String)) (lines : List String) : List String :=
  Edits.unlisted (listed.map Prod.fst) 1 lines

/-- Deletes the removed lines and then inserts each added line at its number. -/
def patch (d : Drift) (lines : List String) : List String :=
  Edits.inserted 1 d.added (kept d.removed lines)

/-- A drift lists lines of both documents under their numbers, the lines that it does not
list are the same on both sides, and it turns the committed lines into the regenerated
ones. -/
theorem compare_patches (committed regenerated : String) :
    Lists (linesOf committed) (compare committed regenerated).removed ∧
      Lists (linesOf regenerated) (compare committed regenerated).added ∧
      kept (compare committed regenerated).removed (linesOf committed) =
        kept (compare committed regenerated).added (linesOf regenerated) ∧
      (compare committed regenerated).patch (linesOf committed) =
        linesOf regenerated := by
  have hwalked := walked_compare committed regenerated
  have hkept : kept (compare committed regenerated).removed (linesOf committed) =
      kept (compare committed regenerated).added (linesOf regenerated) := hwalked.unlisted_eq
  refine ⟨lists_of_sublist hwalked.removed_sublist, lists_of_sublist hwalked.added_sublist,
    hkept, ?_⟩
  rw [patch, hkept]
  exact Edits.inserted_unlisted hwalked.added_sublist

end Drift

end LayoutGuard
