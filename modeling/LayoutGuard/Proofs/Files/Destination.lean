import Mathlib.Data.List.Basic
import LayoutGuard.Proofs.Files.Update

/-!
Where a file may be moved to along a path: in an existing directory, under the last
name of the path, over nothing or over another file. The path leads to that place,
and changing a file elsewhere or there leaves it a destination.
-/

namespace LayoutGuard.FileSystem

variable {fs : FileSystem} {p : Path}

theorem enter_eq_ok_iff {loc dir : Location} :
    fs.enter loc = .ok dir ↔ (∃ m, fs.entry? loc = some (.directory m)) ∧ loc = dir := by
  rw [enter]
  cases h : fs.entry? loc with
  | none => simp
  | some e => cases e <;> simp

theorem descend_append (segments rest : List (List Char)) (loc : Location) :
    fs.descend loc (segments ++ rest) =
      (fs.descend loc segments).bind fun next => fs.descend next rest := by
  induction segments generalizing loc with
  | nil => rfl
  | cons s segments ih =>
    simp only [List.cons_append, descend, bind]
    cases fs.enter loc with
    | error e => rfl
    | ok l =>
      simp only [Except.bind]
      cases follow l s with
      | error e => rfl
      | ok next => exact ih next

/-- A path ends in a name, with no slash behind it, and its other segments lead to
a directory. -/
structure Named (fs : FileSystem) (p : Path) (dir : Location) (name : List Char) : Prop where
  checked : checkPath p = .ok ()
  segments : ∃ parents, p.segments = parents ++ [name] ∧ fs.descend (fs.base p) parents = .ok dir
  nonempty : name ≠ []
  meaning : nameOf name = some name
  directory : fs.enter dir = .ok dir

theorem nameOf_eq_some {segment name : List Char} (h : nameOf segment = some name) :
    segment = name := by
  rw [nameOf] at h
  split at h
  · cases h
  · exact Option.some.inj h

/-- A path has a target in a directory exactly when it names something there. -/
theorem target_eq_ok_iff {dir : Location} {name : List Char} :
    fs.target p = .ok ⟨dir, some name, false⟩ ↔ fs.Named p dir name := by
  constructor
  · intro h
    rw [target, bind_eq_ok_iff] at h
    obtain ⟨⟨⟩, hchecked, h⟩ := h
    dsimp only at h
    -- With a slash at the end the first segment from behind is empty.
    split at h
    · cases h
    · rename_i last parents hdrop
      obtain ⟨loc, hdescend, h⟩ := bind_eq_ok_iff.mp h
      obtain ⟨d, hdir, h⟩ := bind_eq_ok_iff.mp h
      rw [mapError_eq_ok_iff] at hdescend hdir
      cases hsegments : p.segments.reverse with
      | nil => simp [hsegments] at hdrop
      | cons s rest =>
        simp only [hsegments, pure, Except.pure, Except.ok.injEq, Target.mk.injEq, List.head?_cons,
          Option.map_some, Option.getD_some] at h
        obtain ⟨rfl, hmeaning, hs⟩ := h
        rw [hsegments, List.dropWhile_cons, hs] at hdrop
        cases hdrop
        cases nameOf_eq_some hmeaning
        obtain ⟨_, rfl⟩ := enter_eq_ok_iff.mp hdir
        exact {
          checked := hchecked
          segments := ⟨parents.reverse, by simpa using congrArg List.reverse hsegments, hdescend⟩
          nonempty := by simpa using hs
          meaning := hmeaning
          directory := hdir }
  · rintro ⟨hchecked, ⟨parents, hsegments, hdescend⟩, hname, hmeaning, hdir⟩
    have hempty : name.isEmpty = false := by simpa using hname
    simp [target, hchecked, hsegments, hempty, hdescend, hdir, hmeaning, bind, Except.bind, pure,
      Except.pure, Except.mapError]

/-- A place that a file may be moved to along a path. -/
structure Destination (fs : FileSystem) (p : Path) (loc : Location) : Prop where
  no_nul : '\x00' ∉ p.text.toList
  named : ∃ dir name, fs.Named p dir name ∧ follow dir name = .ok loc
  free : fs.NoDirectory loc

/-- Following the path leads to its destination. -/
theorem Destination.locate {loc : Location} (h : fs.Destination p loc) :
    fs.locate p = .ok loc := by
  obtain ⟨dir, name, hnamed, hfollow⟩ := h.named
  obtain ⟨parents, hsegments, hdescend⟩ := hnamed.segments
  rw [locate_eq_ok_iff, hsegments, descend_append, hdescend]
  refine ⟨hnamed.checked, ?_⟩
  simp only [Except.bind, descend, bind, hnamed.directory, hfollow]

/-- A move succeeds when the path has a destination and the source is there. -/
theorem moveOver_eq_ok_iff {source : Location} {after : FileSystem} :
    fs.moveOver source p = .ok after ↔ ∃ loc e, fs.Destination p loc ∧
      fs.entry? source = some e ∧ after = (fs.erase source).put loc e := by
  constructor
  · intro h
    rw [moveOver] at h
    split at h
    · cases h
    · rename_i hnul
      split at h
      · cases h
      · cases h
      · rename_i dir name slash htarget
        split at h
        · cases h
        · rename_i loc hfollow
          split at h
          · cases h
          · rename_i hslash
            split at h
            · cases h
            · cases h
            · rename_i e hsource hdirectory
              cases h
              rw [Bool.not_eq_true] at hslash
              rw [hslash, target_eq_ok_iff] at htarget
              have hdestination : fs.Destination p loc :=
                ⟨by simpa using hnul, ⟨dir, name, htarget, hfollow⟩, hdirectory⟩
              exact ⟨loc, e, hdestination, hsource, rfl⟩
  · rintro ⟨loc, e, ⟨hnul, ⟨dir, name, hnamed, hfollow⟩, hfree⟩, hsource, rfl⟩
    have htarget := target_eq_ok_iff.mpr hnamed
    have hnul' : p.text.toList.contains '\x00' = false := by simpa using hnul
    rw [moveOver, hnul', htarget]
    simp only [Bool.false_eq_true, if_false, hfollow, hsource]
    cases hentry : fs.entry? loc with
    | none => rfl
    | some x =>
      cases x with
      | directory m => exact absurd hentry (hfree m)
      | file m cs => rfl

/-! Trees that differ in one file -/

namespace Updated

variable {after : FileSystem} {loc : Location} {mode : Nat} {contents : List UInt8}

theorem named_iff (h : Updated fs loc (.file mode contents) after) (hdir : fs.NoDirectory loc)
    {dir : Location} {name : List Char} : after.Named p dir name ↔ fs.Named p dir name := by
  constructor
  · rintro ⟨hchecked, ⟨parents, hsegments, hdescend⟩, hname, hmeaning, hdirectory⟩
    rw [h.base, h.descend_iff hdir] at hdescend
    exact ⟨hchecked, ⟨parents, hsegments, hdescend⟩, hname, hmeaning,
      (h.enter_iff hdir _ _).mp hdirectory⟩
  · rintro ⟨hchecked, ⟨parents, hsegments, hdescend⟩, hname, hmeaning, hdirectory⟩
    rw [← h.descend_iff hdir, ← h.base] at hdescend
    exact ⟨hchecked, ⟨parents, hsegments, hdescend⟩, hname, hmeaning,
      (h.enter_iff hdir _ _).mpr hdirectory⟩

theorem noDirectory_iff (h : Updated fs loc (.file mode contents) after)
    (hdir : fs.NoDirectory loc) {l : Location} : after.NoDirectory l ↔ fs.NoDirectory l := by
  by_cases hl : l = loc
  · subst hl
    refine iff_of_true ?_ hdir
    simp [NoDirectory, h.entry?_self]
  · simp only [NoDirectory, h.entry?_of_ne hl]

/-- A write to a file moves no destination. -/
theorem destination_iff (h : Updated fs loc (.file mode contents) after)
    (hdir : fs.NoDirectory loc) {l : Location} : after.Destination p l ↔ fs.Destination p l := by
  constructor
  · rintro ⟨hnul, hnamed, hfree⟩
    simp only [h.named_iff hdir] at hnamed
    exact ⟨hnul, hnamed, (h.noDirectory_iff hdir).mp hfree⟩
  · rintro ⟨hnul, hnamed, hfree⟩
    simp only [← h.named_iff hdir] at hnamed
    exact ⟨hnul, hnamed, (h.noDirectory_iff hdir).mpr hfree⟩

theorem locateDirectory_iff (h : Updated fs loc (.file mode contents) after)
    (hdir : fs.NoDirectory loc) {q : Path} {l : Location} :
    after.locateDirectory q = .ok l ↔ fs.locateDirectory q = .ok l := by
  simp only [locateDirectory, bind_eq_ok_iff, mapError_eq_ok_iff, h.locate_iff hdir,
    h.enter_iff hdir]

end Updated

end LayoutGuard.FileSystem
