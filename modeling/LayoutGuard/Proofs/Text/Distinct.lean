import Mathlib.Data.List.Basic
import LayoutGuard.Text.Reading

/-!
Keeping the first element of each group with equal keys. An element is kept exactly if
none before it has its key, so a list without repeated keys stays as it is.
-/

namespace LayoutGuard.Text

variable {α β κ : Type}

/-- An element stands in a list, and none before it has its key. -/
def IsFirst (key : α → κ) (as : List α) (a : α) : Prop :=
  ∃ before after, as = before ++ a :: after ∧ ∀ b ∈ before, key b ≠ key a

theorem isFirst_cons_iff {key : α → κ} {c : α} {as : List α} {a : α} :
    IsFirst key (c :: as) a ↔ a = c ∨ (key c ≠ key a ∧ IsFirst key as a) := by
  constructor
  · rintro ⟨before, after, heq, hbefore⟩
    cases before with
    | nil =>
      cases heq
      exact Or.inl rfl
    | cons b before =>
      cases heq
      exact Or.inr ⟨hbefore _ List.mem_cons_self, before, after, rfl,
        fun b hb => hbefore b (List.mem_cons_of_mem _ hb)⟩
  · rintro (rfl | ⟨hne, before, after, rfl, hbefore⟩)
    · exact ⟨[], as, rfl, by simp⟩
    · refine ⟨c :: before, after, rfl, ?_⟩
      intro b hb
      rcases List.mem_cons.mp hb with rfl | hb
      · exact hne
      · exact hbefore b hb

/-- The first result with its key comes from an element before which no result has
that key. -/
theorem isFirst_filterMap_iff {key : α → κ} {f : β → Option α} {bs : List β} {a : α} :
    IsFirst key (bs.filterMap f) a ↔ ∃ before b after, bs = before ++ b :: after ∧
      f b = some a ∧ ∀ c ∈ before, ∀ d, f c = some d → key d ≠ key a := by
  constructor
  · rintro ⟨results, others, heq, hfirst⟩
    obtain ⟨front, back, rfl, rfl, hback⟩ := List.filterMap_eq_append_iff.mp heq
    obtain ⟨gap, b, after, rfl, hgap, hb, -⟩ := List.filterMap_eq_cons_iff.mp hback
    refine ⟨front ++ gap, b, after, (List.append_assoc front gap _).symm, hb, ?_⟩
    intro c hc d hd
    rcases List.mem_append.mp hc with hc | hc
    · exact hfirst d (List.mem_filterMap.mpr ⟨c, hc, hd⟩)
    · rw [hgap c hc] at hd
      cases hd
  · rintro ⟨before, b, after, rfl, hb, hfirst⟩
    refine ⟨before.filterMap f, after.filterMap f, ?_, ?_⟩
    · rw [List.filterMap_append, List.filterMap_cons_some hb]
    · intro d hd
      obtain ⟨c, hc, hcd⟩ := List.mem_filterMap.mp hd
      exact hfirst c hc d hcd

/-- In an ordered list the elements before one are those that are smaller. -/
theorem isFirst_iff_of_pairwise {r : α → α → Prop} [Std.Asymm r] {key : α → κ} {as : List α}
    (h : as.Pairwise r) {a : α} :
    IsFirst key as a ↔ a ∈ as ∧ ∀ b ∈ as, r b a → key b ≠ key a := by
  constructor
  · rintro ⟨before, after, rfl, hbefore⟩
    refine ⟨by simp, ?_⟩
    intro b hb hlt
    obtain ⟨-, hafter, -⟩ := List.pairwise_append.mp h
    rcases List.mem_append.mp hb with hb | hb
    · exact hbefore b hb
    · rcases List.mem_cons.mp hb with rfl | hb
      · exact absurd hlt (Std.Asymm.asymm b b hlt)
      · exact absurd hlt (Std.Asymm.asymm a b ((List.pairwise_cons.mp hafter).1 b hb))
  · rintro ⟨ha, hfirst⟩
    obtain ⟨before, after, rfl⟩ := List.append_of_mem ha
    obtain ⟨-, -, hbefore⟩ := List.pairwise_append.mp h
    refine ⟨before, after, rfl, ?_⟩
    intro b hb
    exact hfirst b (List.mem_append_left _ hb) (hbefore b hb a List.mem_cons_self)

variable [DecidableEq κ]

theorem distinctFrom_map (key : α → κ) (f : β → α) (seen : List κ) (bs : List β) :
    distinctFrom key seen (bs.map f) = (distinctFrom (key ∘ f) seen bs).map f := by
  induction bs generalizing seen with
  | nil => rfl
  | cons b bs ih =>
    rw [List.map_cons, distinctFrom, distinctFrom, ih, ih, Function.comp_apply]
    split <;> rfl

theorem distinctBy_map (key : α → κ) (f : β → α) (bs : List β) :
    distinctBy key (bs.map f) = (distinctBy (key ∘ f) bs).map f :=
  distinctFrom_map key f [] bs

theorem distinctFrom_sublist (key : α → κ) (seen : List κ) (as : List α) :
    (distinctFrom key seen as).Sublist as := by
  induction as generalizing seen with
  | nil => exact List.Sublist.slnil
  | cons a as ih =>
    rw [distinctFrom]
    split
    · exact (ih seen).cons a
    · exact (ih (key a :: seen)).cons_cons a

theorem distinctBy_sublist (key : α → κ) (as : List α) : (distinctBy key as).Sublist as :=
  distinctFrom_sublist key [] as

theorem distinctFrom_of_nodup {key : α → κ} {as : List α} {seen : List κ}
    (hnodup : (as.map key).Nodup) (hseen : ∀ a ∈ as, key a ∉ seen) :
    distinctFrom key seen as = as := by
  induction as generalizing seen with
  | nil => rfl
  | cons a as ih =>
    rw [List.map_cons, List.nodup_cons] at hnodup
    rw [distinctFrom, if_neg (hseen a List.mem_cons_self), ih hnodup.2]
    intro b hb hmem
    rcases List.mem_cons.mp hmem with heq | hmem
    · exact hnodup.1 (heq ▸ List.mem_map_of_mem hb)
    · exact hseen b (List.mem_cons_of_mem a hb) hmem

theorem distinctBy_of_nodup {key : α → κ} {as : List α} (hnodup : (as.map key).Nodup) :
    distinctBy key as = as :=
  distinctFrom_of_nodup hnodup fun _ _ => List.not_mem_nil

theorem exists_mem_distinctFrom (key : α → κ) {as : List α} {seen : List κ} {a : α}
    (ha : a ∈ as) (hseen : key a ∉ seen) : ∃ b ∈ distinctFrom key seen as, key b = key a := by
  induction as generalizing seen with
  | nil => simp at ha
  | cons c as ih =>
    rw [distinctFrom]
    rcases List.mem_cons.mp ha with rfl | ha
    · rw [if_neg hseen]
      exact ⟨a, List.mem_cons_self, rfl⟩
    · split
      · exact ih ha hseen
      · by_cases hkey : key a = key c
        · exact ⟨c, List.mem_cons_self, hkey.symm⟩
        · have hnext : key a ∉ key c :: seen := by
            simp only [List.mem_cons, not_or]
            exact ⟨hkey, hseen⟩
          obtain ⟨b, hb, heq⟩ := ih ha hnext
          exact ⟨b, List.mem_cons_of_mem c hb, heq⟩

theorem mem_distinctFrom_iff {key : α → κ} {as : List α} {seen : List κ} {a : α} :
    a ∈ distinctFrom key seen as ↔ key a ∉ seen ∧ IsFirst key as a := by
  induction as generalizing seen with
  | nil => simp [distinctFrom, IsFirst]
  | cons c as ih =>
    rw [distinctFrom, isFirst_cons_iff]
    split
    next hc =>
      rw [ih]
      refine and_congr_right fun ha => ?_
      have hne : key c ≠ key a := fun e => ha (e ▸ hc)
      have hac : a ≠ c := fun e => hne (congrArg key e.symm)
      rw [or_iff_right hac, and_iff_right hne]
    next hc =>
      rw [List.mem_cons, ih, List.mem_cons, not_or]
      constructor
      · rintro (rfl | ⟨⟨hne, hseen⟩, hfirst⟩)
        · exact ⟨hc, Or.inl rfl⟩
        · exact ⟨hseen, Or.inr ⟨Ne.symm hne, hfirst⟩⟩
      · rintro ⟨hseen, rfl | ⟨hne, hfirst⟩⟩
        · exact Or.inl rfl
        · exact Or.inr ⟨⟨Ne.symm hne, hseen⟩, hfirst⟩

/-- What is kept are the first elements with their keys. -/
theorem mem_distinctBy_iff {key : α → κ} {as : List α} {a : α} :
    a ∈ distinctBy key as ↔ IsFirst key as a := by
  rw [distinctBy, mem_distinctFrom_iff, and_iff_right List.not_mem_nil]

theorem exists_mem_distinctBy (key : α → κ) {as : List α} {a : α} (ha : a ∈ as) :
    ∃ b ∈ distinctBy key as, key b = key a :=
  exists_mem_distinctFrom key ha List.not_mem_nil

theorem mem_distinctBy_id {as : List κ} {a : κ} (ha : a ∈ as) : a ∈ distinctBy id as := by
  obtain ⟨b, hb, rfl⟩ := exists_mem_distinctBy id ha
  exact hb

/-! One more element -/

theorem distinctFrom_concat (key : α → κ) (seen : List κ) (as : List α) (a : α) :
    distinctFrom key seen (as ++ [a]) =
      if key a ∈ seen ∨ key a ∈ as.map key then distinctFrom key seen as
      else distinctFrom key seen as ++ [a] := by
  induction as generalizing seen with
  | nil => simp [distinctFrom]
  | cons b as ih =>
    rw [List.cons_append, distinctFrom, distinctFrom, ih, ih, List.map_cons]
    by_cases hb : key b ∈ seen
    · have hcond : (key a ∈ seen ∨ key a ∈ key b :: as.map key) ↔
          (key a ∈ seen ∨ key a ∈ as.map key) := by
        rw [List.mem_cons]
        constructor
        · rintro (h | h | h)
          · exact Or.inl h
          · exact Or.inl (h ▸ hb)
          · exact Or.inr h
        · exact Or.imp_right Or.inr
      rw [if_pos hb, if_pos hb]
      simp only [hcond]
    · have hcond : (key a ∈ seen ∨ key a ∈ key b :: as.map key) ↔
          (key a ∈ key b :: seen ∨ key a ∈ as.map key) := by
        simp only [List.mem_cons]
        tauto
      rw [if_neg hb, if_neg hb]
      simp only [hcond]
      split
      · rfl
      · rfl

/-- A further element is kept exactly when it is new. -/
theorem distinctBy_concat (as : List κ) (a : κ) :
    distinctBy id (as ++ [a]) =
      if a ∈ as then distinctBy id as else distinctBy id as ++ [a] := by
  rw [distinctBy, distinctFrom_concat]
  simp [distinctBy]

theorem nodup_distinctFrom (seen as : List κ) : (distinctFrom id seen as).Nodup := by
  induction as generalizing seen with
  | nil => exact List.nodup_nil
  | cons a as ih =>
    rw [distinctFrom]
    split
    · exact ih seen
    · refine List.nodup_cons.mpr ⟨?_, ih (a :: seen)⟩
      intro ha
      exact (mem_distinctFrom_iff.mp ha).1 List.mem_cons_self

/-- Nothing is kept twice. -/
theorem nodup_distinctBy (as : List κ) : (distinctBy id as).Nodup :=
  nodup_distinctFrom [] as

theorem mem_distinctBy_id_iff {as : List κ} {a : κ} : a ∈ distinctBy id as ↔ a ∈ as :=
  ⟨fun h => (distinctBy_sublist id as).subset h, mem_distinctBy_id⟩

end LayoutGuard.Text
