import Mathlib.Data.List.Infix
import LayoutGuard.Drift.Edits

/-!
The table of common lengths and the walk along it. The table holds the lengths of
longest common subsequences of all pairs of suffixes, so each step of the walk
compares two such lengths and the walk obeys a recursion that mentions no table.
-/

namespace LayoutGuard.Edits

variable {α : Type} [DecidableEq α]

/-- The length of a longest common subsequence. -/
def commonLength : List α → List α → Nat
  | [], _ => 0
  | _ :: _, [] => 0
  | a :: as, b :: bs =>
    if a = b then commonLength as bs + 1
    else max (commonLength as (b :: bs)) (commonLength (a :: as) bs)
termination_by as bs => as.length + bs.length

@[simp] theorem commonLength_nil_left (bs : List α) : commonLength [] bs = 0 := by
  rw [commonLength]

@[simp] theorem commonLength_nil_right (as : List α) : commonLength as [] = 0 := by
  cases as <;> rw [commonLength]

/-- No common subsequence is longer. -/
theorem length_le_commonLength {s as bs : List α} (hs : s.Sublist as) (ht : s.Sublist bs) :
    s.length ≤ commonLength as bs := by
  induction as, bs using commonLength.induct generalizing s with
  | case1 bs =>
    rw [List.sublist_nil.mp hs]
    simp
  | case2 a as =>
    rw [List.sublist_nil.mp ht]
    simp
  | case3 as a bs ih =>
    rw [commonLength, if_pos rfl]
    -- Behind its own head the subsequence lies behind both equal heads.
    have htail := ih hs.tail ht.tail
    simp only [List.length_tail] at htail
    omega
  | case4 a as b bs hab ihOld ihNew =>
    rw [commonLength, if_neg hab]
    rcases List.sublist_cons_iff.mp hs with hs' | ⟨r, rfl, _⟩
    · exact (ihOld hs' ht).trans (Nat.le_max_left _ _)
    · rcases List.sublist_cons_iff.mp ht with ht' | ⟨q, hq, _⟩
      · exact (ihNew hs ht').trans (Nat.le_max_right _ _)
      · exact absurd (List.cons.inj hq).1 hab

/-- The length is reached by some common subsequence. -/
theorem exists_common (as bs : List α) :
    ∃ s : List α, s.Sublist as ∧ s.Sublist bs ∧ s.length = commonLength as bs := by
  induction as, bs using commonLength.induct with
  | case1 bs => exact ⟨[], List.nil_sublist _, List.nil_sublist _, by simp⟩
  | case2 a as => exact ⟨[], List.nil_sublist _, List.nil_sublist _, by simp⟩
  | case3 as a bs ih =>
    obtain ⟨s, hs, ht, hlen⟩ := ih
    refine ⟨a :: s, hs.cons_cons a, ht.cons_cons a, ?_⟩
    rw [commonLength, if_pos rfl, List.length_cons, hlen]
  | case4 a as b bs hab ihOld ihNew =>
    rw [commonLength, if_neg hab]
    rcases le_total (commonLength (a :: as) bs) (commonLength as (b :: bs)) with h | h
    · obtain ⟨s, hs, ht, hlen⟩ := ihOld
      exact ⟨s, hs.cons a, ht, by rw [max_eq_left h, hlen]⟩
    · obtain ⟨s, hs, ht, hlen⟩ := ihNew
      exact ⟨s, hs, ht.cons b, by rw [max_eq_right h, hlen]⟩

/-! The table -/

/-- From the row for a list comes the row for the list with one more element in front. -/
theorem extendRow_tails (a : α) (as bs : List α) :
    extendRow a bs (bs.tails.map (commonLength as)) = bs.tails.map (commonLength (a :: as)) := by
  induction bs with
  | nil => simp [extendRow]
  | cons b bs ih =>
    have hhead : ∀ f : List α → Nat, (bs.tails.map f).headD 0 = f bs := by
      intro f
      cases bs <;> simp
    simp only [List.tails_cons, List.map_cons, extendRow, List.tail_cons, List.headD_cons, ih,
      hhead]
    rw [commonLength]

/-- The table holds the common length of every two suffixes. -/
theorem lengthTable_eq (old new : List α) :
    lengthTable old new = old.tails.map fun s => new.tails.map (commonLength s) := by
  induction old with
  | nil =>
    have hzero : (commonLength [] : List α → Nat) = fun _ => 0 := by
      funext bs
      simp
    simp [lengthTable, hzero]
  | cons a as ih =>
    have hhead : (as.tails.map fun s => new.tails.map (commonLength s)).headD [] =
        new.tails.map (commonLength as) := by
      cases as <;> simp
    simp only [lengthTable, ih, hhead, extendRow_tails, List.tails_cons, List.map_cons]

theorem corner_lengthTable (old new : List α) :
    corner (lengthTable old new) = commonLength old new := by
  rw [lengthTable_eq]
  cases old <;> cases new <;> simp [corner]

theorem lengthTable_tail (a : α) (old new : List α) :
    (lengthTable (a :: old) new).tail = lengthTable old new := rfl

theorem lengthTable_map_tail (old : List α) (b : α) (new : List α) :
    (lengthTable old (b :: new)).map List.tail = lengthTable old new := by
  simp only [lengthTable_eq, List.map_map, List.tails_cons]
  rfl

/-! The walk -/

/-- The walk from two places with the table that belongs to them. -/
def walkFrom (i j : Nat) (old new : List α) : Edits α :=
  walk i j old new (lengthTable old new)

theorem walkFrom_nil_left (i j : Nat) (new : List α) :
    walkFrom i j [] new = ⟨[], (new.zipIdx j).map Prod.swap⟩ := by
  rw [walkFrom, walk]

theorem walkFrom_nil_right (i j : Nat) (old : List α) :
    walkFrom i j old [] = ⟨(old.zipIdx i).map Prod.swap, []⟩ := by
  cases old with
  | nil => exact walkFrom_nil_left i j []
  | cons a old => rw [walkFrom, walk]

/-- Equal heads are kept. -/
theorem walkFrom_same (i j : Nat) (a : α) (old new : List α) :
    walkFrom i j (a :: old) (a :: new) = walkFrom (i + 1) (j + 1) old new := by
  rw [walkFrom, walk, if_pos rfl, lengthTable_tail, lengthTable_map_tail]
  rfl

/-- The old head goes when that costs no common element. -/
theorem walkFrom_remove (i j : Nat) {a b : α} {old new : List α} (hab : a ≠ b)
    (h : commonLength (a :: old) new ≤ commonLength old (b :: new)) :
    walkFrom i j (a :: old) (b :: new) =
      ⟨(i, a) :: (walkFrom (i + 1) j old (b :: new)).removed,
        (walkFrom (i + 1) j old (b :: new)).added⟩ := by
  rw [walkFrom, walk, if_neg hab, lengthTable_tail, lengthTable_map_tail, corner_lengthTable,
    corner_lengthTable, if_pos h]
  rfl

/-- Otherwise the new head comes. -/
theorem walkFrom_add (i j : Nat) {a b : α} {old new : List α} (hab : a ≠ b)
    (h : commonLength old (b :: new) < commonLength (a :: old) new) :
    walkFrom i j (a :: old) (b :: new) =
      ⟨(walkFrom i (j + 1) (a :: old) new).removed,
        (j, b) :: (walkFrom i (j + 1) (a :: old) new).added⟩ := by
  rw [walkFrom, walk, if_neg hab, lengthTable_tail, lengthTable_map_tail, corner_lengthTable,
    corner_lengthTable, if_neg (by omega)]
  rfl

/-! Lists whose common elements agree in order -/

section Shared

variable (keep : α → Bool)

/-- When all shared elements are kept, no common subsequence is longer than what is kept. -/
theorem commonLength_le_kept {old new : List α} (hkeep : ∀ a ∈ old, a ∈ new → keep a = true) :
    commonLength old new ≤ (old.filter keep).length := by
  obtain ⟨s, hs, ht, hlen⟩ := exists_common old new
  have hall : s.filter keep = s :=
    List.filter_eq_self.mpr fun a ha => hkeep a (hs.subset ha) (ht.subset ha)
  rw [← hlen, ← hall]
  exact (hs.filter keep).length_le

/-- What is kept alike on both sides is a common subsequence. -/
theorem kept_le_commonLength {old new : List α} (hshared : old.filter keep = new.filter keep) :
    (old.filter keep).length ≤ commonLength old new := by
  apply length_le_commonLength List.filter_sublist
  rw [hshared]
  exact List.filter_sublist

/-- The elements that do not pass, numbered from `n`. -/
def dropped (n : Nat) (as : List α) : List (Nat × α) :=
  ((as.zipIdx n).filter fun p => !keep p.1).map Prod.swap

omit [DecidableEq α] in
theorem dropped_cons (n : Nat) (a : α) (as : List α) :
    dropped keep n (a :: as) =
      if keep a then dropped keep (n + 1) as else (n, a) :: dropped keep (n + 1) as := by
  cases h : keep a <;> simp [dropped, List.zipIdx_cons, h]

omit [DecidableEq α] in
theorem dropped_of_kept_nil (n : Nat) {as : List α} (h : as.filter keep = []) :
    dropped keep n as = (as.zipIdx n).map Prod.swap := by
  rw [dropped, List.filter_eq_self.mpr]
  intro p hp
  have := List.filter_eq_nil_iff.mp h p.1 (List.fst_mem_of_mem_zipIdx hp)
  simpa using this

omit [DecidableEq α] in
theorem dropped_map {β : Type} (n : Nat) (f : β → α) (bs : List β) :
    dropped keep n (bs.map f) =
      ((bs.zipIdx n).filter fun p => !keep (f p.1)).map fun p => (p.2, f p.1) := by
  induction bs generalizing n with
  | nil => rfl
  | cons b bs ih => cases h : keep (f b) <;> simp [dropped_cons, List.zipIdx_cons, h, ih]

/-- When every common element is kept and the kept elements of both lists agree
in order, the walk drops exactly the others. -/
theorem walkFrom_of_shared (i j : Nat) (old new : List α)
    (hshared : old.filter keep = new.filter keep)
    (hkeep : ∀ a ∈ old, a ∈ new → keep a = true) :
    walkFrom i j old new = ⟨dropped keep i old, dropped keep j new⟩ := by
  induction old, new using commonLength.induct generalizing i j with
  | case1 new =>
    rw [walkFrom_nil_left, dropped_of_kept_nil keep j hshared.symm]
    rfl
  | case2 a old =>
    rw [walkFrom_nil_right, dropped_of_kept_nil keep i hshared]
    rfl
  | case3 old a new ih =>
    have ha : keep a = true := hkeep a List.mem_cons_self List.mem_cons_self
    rw [List.filter_cons_of_pos ha, List.filter_cons_of_pos ha] at hshared
    rw [walkFrom_same, ih (i + 1) (j + 1) (List.cons.inj hshared).2
      fun c hc hd => hkeep c (List.mem_cons_of_mem a hc) (List.mem_cons_of_mem a hd)]
    simp only [dropped_cons, ha, if_true]
  | case4 a old b new hab ihOld ihNew =>
    have hkeepOld : ∀ c ∈ old, c ∈ b :: new → keep c = true :=
      fun c hc hd => hkeep c (List.mem_cons_of_mem a hc) hd
    have hkeepNew : ∀ c ∈ a :: old, c ∈ new → keep c = true :=
      fun c hc hd => hkeep c hc (List.mem_cons_of_mem b hd)
    cases ha : keep a with
    | false =>
      have ha' : ¬keep a = true := by simp [ha]
      have hrest : old.filter keep = (b :: new).filter keep := by
        rwa [List.filter_cons_of_neg ha'] at hshared
      have hle : commonLength (a :: old) new ≤ commonLength old (b :: new) := by
        have hupper := commonLength_le_kept keep hkeepNew
        rw [List.filter_cons_of_neg ha'] at hupper
        exact hupper.trans (kept_le_commonLength keep hrest)
      rw [walkFrom_remove i j hab hle, ihOld (i + 1) j hrest hkeepOld]
      simp [dropped_cons keep i a, ha]
    | true =>
      -- The kept head `a` differs from `b`, so `b` cannot be a kept head.
      have hb : keep b = false := by
        by_contra hb
        rw [List.filter_cons_of_pos ha, List.filter_cons_of_pos (by simpa using hb)] at hshared
        exact hab (List.cons.inj hshared).1
      have hb' : ¬keep b = true := by simp [hb]
      have hrest : (a :: old).filter keep = new.filter keep := by
        rwa [List.filter_cons_of_neg hb'] at hshared
      have hlt : commonLength old (b :: new) < commonLength (a :: old) new := by
        have hupper := commonLength_le_kept keep hkeepOld
        have hlower := kept_le_commonLength keep hrest
        rw [List.filter_cons_of_pos ha, List.length_cons] at hlower
        omega
      rw [walkFrom_add i j hab hlt, ihNew i (j + 1) hrest hkeepNew]
      simp [dropped_cons keep j b, hb]

end Shared

end LayoutGuard.Edits
