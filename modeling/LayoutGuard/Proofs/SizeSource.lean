import Mathlib.Data.List.Basic
import LayoutGuard.Proofs.Traversal
import LayoutGuard.SizeTable

/-!
What a source of sizes answers for registry entries. An entry resolves to the size that is
known for its type unless that is zero. A run over the entries keeps something of every
size, or it stops at the first entry that has no usable size, with the fault of that entry.
-/

namespace LayoutGuard.SizeSource

variable {source : SizeSource} {b : Binding}

/-- A size is usable when it is known and not zero. -/
theorem resolve_eq_ok_iff {n : UInt64} :
    source.resolve b = .ok n ↔ n ≠ 0 ∧ source b.ctype = some n := by
  rw [resolve]
  cases source b.ctype with
  | none => simp
  | some m =>
    by_cases hm : m = 0
    · simp +contextual [hm, eq_comm]
    · simp +contextual [hm, eq_comm]

/-- The type of an entry has no size, or the size zero. -/
def Lacks (source : SizeSource) (b : Binding) : Prop :=
  source b.ctype = none ∨ source b.ctype = some 0

theorem not_lacks_iff : ¬source.Lacks b ↔ ∃ n, n ≠ 0 ∧ source b.ctype = some n := by
  unfold Lacks
  cases source b.ctype with
  | none => simp
  | some n => simp

/-- The fault of an entry that has no usable size. -/
inductive Refuses (source : SizeSource) (b : Binding) : Fault → Prop
  | undefined (h : source b.ctype = none) :
      Refuses source b (.unresolvable b.spelling b.odinName .undefined)
  | empty (h : source b.ctype = some 0) :
      Refuses source b (.unresolvable b.spelling b.odinName .empty)

theorem Refuses.lacks {f : Fault} (h : source.Refuses b f) : source.Lacks b := by
  cases h with
  | undefined hnone => exact Or.inl hnone
  | empty hzero => exact Or.inr hzero

theorem resolve_eq_error_iff {f : Fault} : source.resolve b = .error f ↔ source.Refuses b f := by
  constructor
  · intro h
    unfold resolve at h
    split at h
    next hnone =>
      cases h
      exact .undefined hnone
    next n hsome =>
      split at h
      next hzero =>
        cases h
        subst hzero
        exact .empty hsome
      next => cases h
  · intro h
    cases h with
    | undefined hnone => simp [resolve, hnone]
    | empty hsome => simp [resolve, hsome]

/-- The fault of the first entry in registry order that has no usable size. -/
def FirstRefused (source : SizeSource) (r : Registry) (f : Fault) : Prop :=
  ∃ before b after, r.bindings = before ++ b :: after ∧ source.Refuses b f ∧
    ∀ c ∈ before, ¬source.Lacks c

/-! A run over the entries, which keeps of each one what `g` makes of its size -/

section Run

variable {α : Type} {r : Registry} (g : Binding → UInt64 → α)

theorem map_resolve_eq_ok_iff {a : α} : (source.resolve b).map (g b) = .ok a ↔
    (∃ n, n ≠ 0 ∧ source b.ctype = some n) ∧ a = g b ((source b.ctype).getD 0) := by
  rw [map_eq_ok_iff]
  simp only [resolve_eq_ok_iff]
  constructor
  · rintro ⟨n, ⟨hn, hs⟩, rfl⟩
    exact ⟨⟨n, hn, hs⟩, by simp [hs]⟩
  · rintro ⟨⟨n, hn, hs⟩, rfl⟩
    exact ⟨n, ⟨hn, hs⟩, by simp [hs]⟩

/-- A run over the entries succeeds exactly when all have usable sizes. -/
theorem mapM_resolve_eq_ok_iff {as : List α} :
    (r.bindings.mapM fun b => (source.resolve b).map (g b)) = .ok as ↔
      (∀ b ∈ r.bindings, ∃ n, n ≠ 0 ∧ source b.ctype = some n) ∧
        as = r.bindings.map fun b => g b ((source b.ctype).getD 0) := by
  have hstep (b : Binding) (a : α) (h : (source.resolve b).map (g b) = .ok a) :
      a = g b ((source b.ctype).getD 0) := ((map_resolve_eq_ok_iff g).mp h).2
  rw [mapM_eq_ok_iff hstep]
  simp only [map_resolve_eq_ok_iff, and_true]

/-- A run over the entries stops at the first that has no usable size. -/
theorem mapM_resolve_eq_error_iff {f : Fault} :
    (r.bindings.mapM fun b => (source.resolve b).map (g b)) = .error f ↔
      source.FirstRefused r f := by
  have hsized (c : Binding) :
      (∃ a, (source.resolve c).map (g c) = .ok a) ↔ ¬source.Lacks c := by
    simp [map_resolve_eq_ok_iff, not_lacks_iff]
  simp only [mapM_eq_error_iff, map_eq_error_iff, resolve_eq_error_iff, hsized, FirstRefused]

end Run

theorem exists_firstRefused_iff {r : Registry} :
    (∃ f, source.FirstRefused r f) ↔ ∃ b ∈ r.bindings, source.Lacks b := by
  constructor
  · rintro ⟨f, before, b, after, hsplit, hrefuses, -⟩
    exact ⟨b, by simp [hsplit], hrefuses.lacks⟩
  · rintro ⟨b, hb, hlacks⟩
    cases hrun : r.bindings.mapM fun b => (source.resolve b).map id with
    | error f => exact ⟨f, (mapM_resolve_eq_error_iff fun _ => id).mp hrun⟩
    | ok sizes =>
      have hsized := ((mapM_resolve_eq_ok_iff fun _ => id).mp hrun).1
      exact absurd hlacks (not_lacks_iff.mpr (hsized b hb))

end LayoutGuard.SizeSource
