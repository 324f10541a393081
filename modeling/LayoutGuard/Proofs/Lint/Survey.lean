import Mathlib.Data.List.Induction
import LayoutGuard.Lint
import LayoutGuard.Proofs.Text.Distinct

/-!
The findings about a registry in a single pass. The pass enters each entry into two lists
of groups, the positions of each spelling and the spellings of each Odin name, and the
groups of several make up the findings. They are the findings that are defined spelling by
spelling and name by name.
-/

namespace LayoutGuard

variable {κ β : Type} [DecidableEq κ]

/-! Grouping -/

/-- Enters a value under its key. A known key takes the value into its group, and a new key
opens a group at the end. -/
def enterUnder (add : List β → β → List β) (groups : List (κ × List β)) (entry : κ × β) :
    List (κ × List β) :=
  match groups with
  | [] => [(entry.1, add [] entry.2)]
  | g :: groups =>
    if g.1 = entry.1 then (g.1, add g.2 entry.2) :: groups
    else g :: enterUnder add groups entry

def addNew [DecidableEq β] (vs : List β) (v : β) : List β :=
  if v ∈ vs then vs else vs ++ [v]

def valuesOf (entries : List (κ × β)) (key : κ) : List β :=
  (entries.filter fun e => e.1 = key).map Prod.snd

/-- Entering a value keeps the keys apart and touches the group of its key alone. -/
theorem enterUnder_map (add : List β → β → List β) (group : κ → List β) {keys : List κ}
    (hkeys : keys.Nodup) (entry : κ × β) :
    enterUnder add (keys.map fun k => (k, group k)) entry =
      if entry.1 ∈ keys then
        keys.map fun k => (k, if k = entry.1 then add (group k) entry.2 else group k)
      else keys.map (fun k => (k, group k)) ++ [(entry.1, add [] entry.2)] := by
  induction keys with
  | nil => rfl
  | cons k keys ih =>
    rw [List.nodup_cons] at hkeys
    rw [List.map_cons, enterUnder, ih hkeys.2]
    by_cases hk : k = entry.1
    · subst hk
      have hrest : keys.map (fun k => (k, if k = entry.1 then add (group k) entry.2 else group k)) =
          keys.map fun k => (k, group k) := by
        refine List.map_congr_left fun k hmem => ?_
        have hne : k ≠ entry.1 := fun h => hkeys.1 (h ▸ hmem)
        rw [if_neg hne]
      rw [if_pos rfl, if_pos List.mem_cons_self, List.map_cons, hrest, if_pos rfl]
    · rw [if_neg hk]
      by_cases hmem : entry.1 ∈ keys
      · rw [if_pos hmem, if_pos (List.mem_cons_of_mem k hmem), List.map_cons, if_neg hk]
      · have hnot : entry.1 ∉ k :: keys := by
          rw [List.mem_cons, not_or]
          exact ⟨Ne.symm hk, hmem⟩
        rw [if_neg hmem, if_neg hnot]
        rfl

theorem valuesOf_concat (entries : List (κ × β)) (entry : κ × β) (key : κ) :
    valuesOf (entries ++ [entry]) key =
      if key = entry.1 then valuesOf entries key ++ [entry.2] else valuesOf entries key := by
  rw [valuesOf, List.filter_append, List.map_append]
  by_cases hkey : key = entry.1
  · simp [valuesOf, hkey]
  · simp [valuesOf, hkey, Ne.symm hkey]

/-- A pass makes one group for each key, in the order in which the keys come first. -/
theorem foldl_enterUnder (add : List β → β → List β) (entries : List (κ × β)) :
    entries.foldl (enterUnder add) [] =
      (Text.distinctBy id (entries.map Prod.fst)).map fun k =>
        (k, (valuesOf entries k).foldl add []) := by
  induction entries using List.reverseRecOn with
  | nil => rfl
  | append_singleton entries entry ih =>
    have hmem : entry.1 ∈ Text.distinctBy id (entries.map Prod.fst) ↔
        entry.1 ∈ entries.map Prod.fst := Text.mem_distinctBy_id_iff
    rw [List.foldl_concat, ih, enterUnder_map add _ (Text.nodup_distinctBy _), List.map_append,
      List.map_singleton, Text.distinctBy_concat]
    by_cases hknown : entry.1 ∈ entries.map Prod.fst
    · rw [if_pos (hmem.mpr hknown), if_pos hknown]
      refine List.map_congr_left fun k _ => ?_
      rw [valuesOf_concat]
      split
      · rw [List.foldl_concat]
      · rfl
    · have hempty : valuesOf entries entry.1 = [] := by
        rw [valuesOf, List.map_eq_nil_iff, List.filter_eq_nil_iff]
        intro e he hsame
        exact hknown (List.mem_map.mpr ⟨e, he, by simpa using hsame⟩)
      rw [if_neg (mt hmem.mp hknown), if_neg hknown, List.map_append, List.map_singleton,
        valuesOf_concat, if_pos rfl, hempty]
      congr 1
      refine List.map_congr_left fun k hk => ?_
      have hne : k ≠ entry.1 := fun h => hknown (h ▸ Text.mem_distinctBy_id_iff.mp hk)
      rw [valuesOf_concat, if_neg hne]

/-- Taking values in one by one leaves the first of each. -/
theorem foldl_addNew [DecidableEq β] (vs : List β) :
    vs.foldl addNew [] = Text.distinctBy id vs := by
  induction vs using List.reverseRecOn with
  | nil => rfl
  | append_singleton vs v ih =>
    rw [List.foldl_concat, ih, addNew, Text.distinctBy_concat]
    simp only [Text.mem_distinctBy_id_iff]

theorem zipIdx_map_eq {α γ : Type} (f : α → γ) (as : List α) :
    (as.zipIdx.map fun p => f p.1) = as.map f := by
  conv_rhs => rw [← List.zipIdx_map_fst 0 as, List.map_map]
  rfl

theorem foldl_concat_nil {α : Type} (as : List α) :
    as.foldl (fun bs a => bs ++ [a]) [] = as := by
  induction as using List.reverseRecOn with
  | nil => rfl
  | append_singleton as a ih => rw [List.foldl_concat, ih]

/-- The groups of several values, as found key by key. -/
theorem map_filter_groups {κ β γ : Type} (keys : List κ) (group : κ → List β)
    (report : κ × List β → γ) :
    (((keys.map fun k => (k, group k)).filter fun g => g.2.length > 1).map report) =
      keys.filterMap fun k =>
        if (group k).length > 1 then some (report (k, group k)) else none := by
  induction keys with
  | nil => rfl
  | cons k keys ih =>
    by_cases hk : (group k).length > 1
    · simp [hk, ih]
    · simp [hk, ih]

/-! The pass over a registry -/

namespace Lint

/-- What a pass over the entries of a registry has noted. -/
structure Survey where
  refused : List Finding
  /-- Each spelling with its positions. -/
  positions : List (String × List Nat)
  /-- Each Odin name with the spellings that it is bound to. -/
  spellings : List (String × List String)

def Survey.note (s : Survey) (p : Binding × Nat) : Survey where
  refused :=
    if Odin.isIdentifier p.1.odinName then s.refused
    else s.refused ++ [.invalidForeignName p.1.spelling p.1.odinName]
  positions := enterUnder (fun ps i => ps ++ [i]) s.positions (p.1.spelling, p.2)
  spellings := enterUnder addNew s.spellings (p.1.odinName, p.1.spelling)

def survey (r : Registry) : Survey :=
  r.bindings.zipIdx.foldl Survey.note ⟨[], [], []⟩

/-- The findings that a pass results in: the names that were refused, then the groups of
several positions, then the groups of several spellings. -/
def Survey.findings (s : Survey) (r : Registry) : List Finding :=
  s.refused ++
    (s.positions.filter fun g => g.2.length > 1).map (fun g =>
      .duplicateNative g.1 (g.2.filterMap fun i => (r.bindings[i]?).map Binding.odinName) g.2) ++
    (s.spellings.filter fun g => g.2.length > 1).map fun g => .duplicateForeign g.1 g.2

/-- A pass keeps its three collections apart. -/
theorem foldl_note (ps : List (Binding × Nat)) (s : Survey) :
    ps.foldl Survey.note s =
      ⟨s.refused ++ (ps.filter fun p => !Odin.isIdentifier p.1.odinName).map fun p =>
          .invalidForeignName p.1.spelling p.1.odinName,
        (ps.map fun p => (p.1.spelling, p.2)).foldl (enterUnder fun ps i => ps ++ [i]) s.positions,
        (ps.map fun p => (p.1.odinName, p.1.spelling)).foldl (enterUnder addNew) s.spellings⟩ := by
  induction ps generalizing s with
  | nil => simp
  | cons p ps ih =>
    rw [List.foldl_cons, ih]
    cases hname : Odin.isIdentifier p.1.odinName <;> simp [Survey.note, hname]

/-- The positions noted for a type are those at which it occurs. -/
theorem valuesOf_positions (r : Registry) (spelling : String) :
    valuesOf (r.bindings.zipIdx.map fun p => (p.1.spelling, p.2)) spelling =
      (occurrences r spelling).map Prod.snd := by
  rw [valuesOf, List.filter_map, List.map_map]
  rfl

theorem valuesOf_spellings (r : Registry) (odinName : String) :
    valuesOf (r.bindings.zipIdx.map fun p => (p.1.odinName, p.1.spelling)) odinName =
      (r.bindings.filter fun b => b.odinName = odinName).map Binding.spelling := by
  rw [zipIdx_map_eq fun b : Binding => (b.odinName, b.spelling), valuesOf, List.filter_map,
    List.map_map]
  rfl

theorem odinNames_at_occurrences (r : Registry) (spelling : String) :
    ((occurrences r spelling).map Prod.snd).filterMap
        (fun i => (r.bindings[i]?).map Binding.odinName) =
      (occurrences r spelling).map fun p => p.1.odinName := by
  rw [List.filterMap_map, ← List.filterMap_eq_map]
  refine List.filterMap_congr fun p hp => ?_
  have hat : r.bindings[p.2]? = some p.1 :=
    List.mem_zipIdx_iff_getElem?.mp (List.mem_of_mem_filter hp)
  rw [Function.comp_apply, Function.comp_apply, hat, Option.map_some]

/-- A pass notes the entries with names that Odin refuses, the positions of each spelling and
the spellings of each Odin name. -/
theorem survey_eq (r : Registry) :
    survey r =
      ⟨invalidNames r,
        (Text.distinctBy id r.spellings).map fun spelling =>
          (spelling, (occurrences r spelling).map Prod.snd),
        (Text.distinctBy id (r.bindings.map Binding.odinName)).map fun odinName =>
          (odinName, boundTo r odinName)⟩ := by
  have hrefused : ((r.bindings.zipIdx.filter fun p => !Odin.isIdentifier p.1.odinName).map fun p =>
      Finding.invalidForeignName p.1.spelling p.1.odinName) = invalidNames r := by
    rw [invalidNames]
    conv_rhs => rw [← List.zipIdx_map_fst 0 r.bindings, List.filter_map, List.map_map]
    rfl
  rw [survey, foldl_note, List.nil_append, hrefused, foldl_enterUnder, foldl_enterUnder,
    List.map_map, List.map_map]
  congr 1
  · rw [Registry.spellings, ← zipIdx_map_eq Binding.spelling r.bindings]
    refine List.map_congr_left fun spelling _ => ?_
    rw [valuesOf_positions, foldl_concat_nil]
  · rw [← zipIdx_map_eq Binding.odinName r.bindings]
    refine List.map_congr_left fun odinName _ => ?_
    rw [valuesOf_spellings, foldl_addNew, boundTo]

/-- The findings of a single pass are those that are defined spelling by spelling and name
by name. -/
theorem survey_findings (r : Registry) : (survey r).findings r = registry r := by
  rw [survey_eq, Survey.findings, map_filter_groups, map_filter_groups, registry]
  simp only [odinNames_at_occurrences, List.length_map]
  rfl

end Lint

end LayoutGuard
