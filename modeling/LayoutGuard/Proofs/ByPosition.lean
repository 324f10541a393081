import Mathlib.Data.List.Induction
import Mathlib.Data.List.Nodup
import LayoutGuard.Proofs.Text.Distinct

/-!
Lists in the order of positions. A relation says what a position gives, and a list holds
what all positions give, one element for each position that gives something. Such a list
is determined by the relation. Mapping, filtering and keeping the first element of each
key carry over to the relation.
-/

namespace LayoutGuard

variable {α β κ : Type}

/-- The list holds, in the order of the positions, exactly what they give. -/
def ByPosition (gives : Nat → α → Prop) (as : List α) : Prop :=
  ∃ pairs : List (Nat × α), (pairs.map Prod.fst).Pairwise (· < ·) ∧
    (∀ i a, (i, a) ∈ pairs ↔ gives i a) ∧ pairs.map Prod.snd = as

def FirstAt (as : List α) (i : Nat) (a : α) : Prop :=
  as[i]? = some a ∧ ∀ j < i, as[j]? ≠ some a

/-- An element that stands somewhere in a list has a first position there. -/
theorem exists_firstAt {as : List α} {j : Nat} {a : α} (h : as[j]? = some a) :
    ∃ i ≤ j, FirstAt as i a := by
  induction j using Nat.strongRecOn with
  | ind j ih =>
    by_cases hbefore : ∃ i < j, as[i]? = some a
    · obtain ⟨i, hij, hi⟩ := hbefore
      obtain ⟨k, hki, hk⟩ := ih i hij hi
      exact ⟨k, by omega, hk⟩
    · refine ⟨j, Nat.le_refl j, h, ?_⟩
      intro i hij hi
      exact hbefore ⟨i, hij, hi⟩

theorem FirstAt.eq {as : List α} {i j : Nat} {a : α} (hi : FirstAt as i a) (hj : FirstAt as j a) :
    i = j := by
  have hle : ¬j < i := fun hlt => hi.2 j hlt hj.1
  have hge : ¬i < j := fun hlt => hj.2 i hlt hi.1
  omega

def LastAt (as : List α) (i : Nat) (a : α) : Prop :=
  as[i]? = some a ∧ ∀ j, i < j → as[j]? ≠ some a

/-- An element that is added at the end becomes the last one of its kind. -/
theorem lastAt_concat_iff {as : List α} {b : α} {i : Nat} {a : α} :
    LastAt (as ++ [b]) i a ↔ (b = a ∧ i = as.length) ∨ (b ≠ a ∧ LastAt as i a) := by
  have hat (j : Nat) : (as ++ [b])[j]? = some a ↔ as[j]? = some a ∨ (b = a ∧ j = as.length) := by
    rw [List.getElem?_append]
    split
    next hlt =>
      have hne : j ≠ as.length := by omega
      simp [hne]
    next hge =>
      have hnone : as[j]? = none := List.getElem?_eq_none (by omega)
      rw [hnone, List.getElem?_singleton]
      by_cases hj : j = as.length
      · simp [hj]
      · have hpos : j - as.length ≠ 0 := by omega
        simp [hj, hpos]
  have hbound {j : Nat} (hj : as[j]? = some a) : j < as.length :=
    (List.getElem?_eq_some_iff.mp hj).1
  simp only [LastAt, hat, not_or, not_and, ne_eq]
  constructor
  · rintro ⟨hi | ⟨hb, hi⟩, hafter⟩
    · have hlt := hbound hi
      exact Or.inr ⟨fun hb => (hafter as.length hlt).2 hb rfl, hi, fun j hj => (hafter j hj).1⟩
    · exact Or.inl ⟨hb, hi⟩
  · rintro (⟨hb, rfl⟩ | ⟨hb, hi, hafter⟩)
    · refine ⟨Or.inr ⟨hb, rfl⟩, fun j hj => ⟨fun h => ?_, fun _ => by omega⟩⟩
      have hlt := hbound h
      omega
    · exact ⟨Or.inl hi, fun j hj => ⟨hafter j hj, fun h => absurd h hb⟩⟩

theorem exists_lastAt {as : List α} {a : α} (h : a ∈ as) : ∃ i, LastAt as i a := by
  induction as using List.reverseRecOn with
  | nil => simp at h
  | append_singleton as b ih =>
    simp only [lastAt_concat_iff]
    by_cases hb : b = a
    · exact ⟨as.length, Or.inl ⟨hb, rfl⟩⟩
    · have hmem : a ∈ as := by simpa [Ne.symm hb] using h
      obtain ⟨i, hi⟩ := ih hmem
      exact ⟨i, Or.inr ⟨hb, hi⟩⟩

namespace ByPosition

variable {gives gives' : Nat → α → Prop} {as bs : List α}

theorem congr (h : ByPosition gives as) (hsame : ∀ i a, gives i a ↔ gives' i a) :
    ByPosition gives' as := by
  obtain ⟨pairs, hsorted, hmem, has⟩ := h
  exact ⟨pairs, hsorted, fun i a => (hmem i a).trans (hsame i a), has⟩

/-- The elements of the list are what the positions give. -/
theorem mem_iff (h : ByPosition gives as) {a : α} : a ∈ as ↔ ∃ i, gives i a := by
  obtain ⟨pairs, -, hmem, rfl⟩ := h
  constructor
  · intro ha
    obtain ⟨⟨i, b⟩, hp, rfl⟩ := List.mem_map.mp ha
    exact ⟨i, (hmem i b).mp hp⟩
  · rintro ⟨i, hi⟩
    exact List.mem_map.mpr ⟨(i, a), (hmem i a).mpr hi, rfl⟩

theorem eq_nil_iff (h : ByPosition gives as) : as = [] ↔ ∀ i a, ¬gives i a := by
  rw [List.eq_nil_iff_forall_not_mem]
  constructor
  · intro hnil i a hi
    exact hnil a (h.mem_iff.mpr ⟨i, hi⟩)
  · intro hnone a ha
    obtain ⟨i, hi⟩ := h.mem_iff.mp ha
    exact hnone i a hi

/-- The relation determines the list. -/
theorem unique (has : ByPosition gives as) (hbs : ByPosition gives bs) : as = bs := by
  obtain ⟨ps, hps, hmemp, rfl⟩ := has
  obtain ⟨qs, hqs, hmemq, rfl⟩ := hbs
  have hirrefl : Std.Irrefl fun p q : Nat × α => p.1 < q.1 := ⟨fun p => Nat.lt_irrefl p.1⟩
  have hpsorted := List.pairwise_map.mp hps
  have hqsorted := List.pairwise_map.mp hqs
  have hperm : ps.Perm qs := (List.perm_ext_iff_of_nodup hpsorted.nodup hqsorted.nodup).mpr
    fun p => (hmemp p.1 p.2).trans (hmemq p.1 p.2).symm
  have hsame : ps = qs := hperm.eq_of_pairwise
    (fun _ _ _ _ hpq hqp => absurd hqp (Nat.lt_asymm hpq)) hpsorted hqsorted
  rw [hsame]

/-- There are two elements when two positions give something. -/
theorem one_lt_length_iff (h : ByPosition gives as) :
    1 < as.length ↔ ∃ i j a b, i < j ∧ gives i a ∧ gives j b := by
  obtain ⟨pairs, hsorted, hmem, rfl⟩ := h
  rw [List.length_map]
  constructor
  · intro hlength
    match pairs, hsorted, hmem, hlength with
    | p :: q :: rest, hsorted, hmem, _ =>
      rw [List.map_cons, List.map_cons, List.pairwise_cons] at hsorted
      refine ⟨p.1, q.1, p.2, q.2, hsorted.1 q.1 (by simp), ?_, ?_⟩
      · exact (hmem _ _).mp (by simp)
      · exact (hmem _ _).mp (by simp)
  · rintro ⟨i, j, a, b, hij, hi, hj⟩
    match pairs, (hmem i a).mpr hi, (hmem j b).mpr hj with
    | [p], hip, hjp =>
      rw [List.mem_singleton] at hip hjp
      have hsame : i = j := congrArg Prod.fst (hip.trans hjp.symm)
      omega
    | _ :: _ :: _, _, _ => simp

theorem nil (h : ∀ i a, ¬gives i a) : ByPosition gives [] :=
  ⟨[], List.Pairwise.nil, fun i a => ⟨fun hmem => absurd hmem List.not_mem_nil,
    fun hi => absurd hi (h i a)⟩, rfl⟩

/-- A position behind all others adds its element at the end. -/
theorem concat (h : ByPosition gives as) {n : Nat} (hbound : ∀ i a, gives i a → i < n) (b : α) :
    ByPosition (fun i a => gives i a ∨ i = n ∧ a = b) (as ++ [b]) := by
  obtain ⟨pairs, hsorted, hmem, rfl⟩ := h
  refine ⟨pairs ++ [(n, b)], ?_, ?_, by simp⟩
  · rw [List.map_append, List.pairwise_append]
    refine ⟨hsorted, List.pairwise_singleton _ _, ?_⟩
    intro i hi j hj
    obtain ⟨p, hp, rfl⟩ := List.mem_map.mp hi
    obtain rfl : j = n := by simpa using hj
    exact hbound p.1 p.2 ((hmem p.1 p.2).mp hp)
  · intro i a
    rw [List.mem_append, hmem, List.mem_singleton, Prod.mk.injEq]

/-! What becomes of a list -/

/-- A partial map over the elements keeps their order. -/
theorem filterMap (h : ByPosition gives as) (f : α → Option β) :
    ByPosition (fun i b => ∃ a, gives i a ∧ f a = some b) (as.filterMap f) := by
  obtain ⟨pairs, hsorted, hmem, rfl⟩ := h
  refine ⟨pairs.filterMap fun p => (f p.2).map fun b => (p.1, b), ?_, ?_, ?_⟩
  · refine List.pairwise_map.mpr (List.pairwise_filterMap.mpr ?_)
    refine (List.pairwise_map.mp hsorted).imp ?_
    intro p q hpq b hb c hc
    obtain ⟨_, -, rfl⟩ := Option.map_eq_some_iff.mp hb
    obtain ⟨_, -, rfl⟩ := Option.map_eq_some_iff.mp hc
    exact hpq
  · intro i b
    simp only [List.mem_filterMap, Option.map_eq_some_iff, Prod.exists, Prod.mk.injEq, hmem]
    constructor
    · rintro ⟨j, a, hj, c, hc, rfl, rfl⟩
      exact ⟨a, hj, hc⟩
    · rintro ⟨a, hi, hb⟩
      exact ⟨i, a, hi, b, hb, rfl, rfl⟩
  · rw [List.map_filterMap, List.filterMap_map]
    refine List.filterMap_congr fun p _ => ?_
    rw [Option.map_map, Function.comp_apply]
    exact Option.map_id'

theorem map (h : ByPosition gives as) (f : α → β) :
    ByPosition (fun i b => ∃ a, gives i a ∧ f a = b) (as.map f) := by
  rw [← List.filterMap_eq_map]
  refine (h.filterMap (some ∘ f)).congr fun i b => ?_
  simp

theorem filter (h : ByPosition gives as) (p : α → Bool) :
    ByPosition (fun i a => gives i a ∧ p a = true) (as.filter p) := by
  rw [← List.filterMap_eq_filter]
  refine (h.filterMap _).congr fun i a => ?_
  simp [Option.guard_eq_some_iff]

/-- Of the positions that give the same key the first one is kept. -/
theorem distinctBy [DecidableEq κ] (h : ByPosition gives as) (key : α → κ) :
    ByPosition (fun i a => gives i a ∧ ∀ j < i, ∀ b, gives j b → key b ≠ key a)
      (Text.distinctBy key as) := by
  obtain ⟨pairs, hsorted, hmem, rfl⟩ := h
  have hasymm : Std.Asymm fun p q : Nat × α => p.1 < q.1 := ⟨fun _ _ => Nat.lt_asymm⟩
  have hpairs := List.pairwise_map.mp hsorted
  refine ⟨Text.distinctBy (key ∘ Prod.snd) pairs, ?_, ?_, (Text.distinctBy_map _ _ _).symm⟩
  · exact List.pairwise_map.mpr (hpairs.sublist (Text.distinctBy_sublist _ pairs))
  · intro i a
    rw [Text.mem_distinctBy_iff, Text.isFirst_iff_of_pairwise hpairs, hmem]
    refine and_congr_right fun _ => ?_
    constructor
    · intro hfirst j hj b hb
      exact hfirst (j, b) ((hmem j b).mpr hb) hj
    · intro hfirst q hq hlt
      exact hfirst q.1 hlt q.2 ((hmem q.1 q.2).mp hq)

end ByPosition

theorem mem_swap_zipIdx_iff {as : List α} {i : Nat} {a : α} :
    (i, a) ∈ as.zipIdx.map Prod.swap ↔ as[i]? = some a := by
  rw [List.mem_map]
  constructor
  · rintro ⟨p, hp, hswap⟩
    cases hswap
    exact List.mem_zipIdx_iff_getElem?.mp hp
  · intro h
    exact ⟨(a, i), List.mem_zipIdx_iff_getElem?.mpr h, rfl⟩

/-- Every list holds the elements at its own positions. -/
theorem byPosition_getElem? (as : List α) : ByPosition (fun i a => as[i]? = some a) as := by
  refine ⟨as.zipIdx.map Prod.swap, ?_, fun i a => mem_swap_zipIdx_iff, ?_⟩
  · have hpositions : (as.zipIdx.map Prod.swap).map Prod.fst = List.range' 0 as.length := by
      rw [List.map_map]
      exact List.zipIdx_map_snd 0 as
    rw [hpositions]
    exact List.pairwise_lt_range'
  · rw [List.map_map]
    exact List.zipIdx_map_fst 0 as

end LayoutGuard
