import Mathlib.Data.List.Basic
import Mathlib.Data.List.Nodup
import LayoutGuard.Files.Replacement
import LayoutGuard.Proofs.Files.Destination
import LayoutGuard.Proofs.Text.Decimal

/-!
What a replacement does. It puts the file at the place that the path leads to and changes
nothing else, or it ends with a fault and the tree is the one before, also when the system
raises the fault. Where the system makes no trouble, success depends on the directories on
the way, not on the contents of files.
-/

namespace LayoutGuard

namespace Replacement

open FileSystem

variable {fs staged : FileSystem} {p : Path} {dir loc : Location}

/-! The staging file -/

/-- Staging files with different numbers have different names. -/
theorem stagingName_injective {m n : Nat} (h : stagingName m = stagingName n) : m = n := by
  have hlist := congrArg String.toList h
  unfold stagingName at hlist
  simp only [String.toList_append, List.append_cancel_left_eq,
    List.append_cancel_right_eq, Text.Decimal.toList_text] at hlist
  exact Text.Decimal.render_injective hlist

/-- There are more candidates than places that are in use. -/
theorem exists_freshPlace (fs : FileSystem) (dir : Location) (p : Path) :
    ∃ loc, freshPlace? fs dir p = some loc := by
  rw [← Option.isSome_iff_exists, freshPlace?, List.find?_isSome]
  by_contra hnone
  have hnodup : ((List.range (fs.entries.length + 2)).map fun n => stagingName n :: dir).Nodup :=
    List.nodup_range.map fun m n h => stagingName_injective (List.cons.inj h).1
  have hused : ((List.range (fs.entries.length + 2)).map fun n => stagingName n :: dir) ⊆
      (fs.locate p).toOption.toList ++ fs.entries.map Prod.fst := by
    intro loc hloc
    by_contra hout
    apply hnone
    refine ⟨loc, hloc, ?_⟩
    obtain ⟨n, _, rfl⟩ := List.mem_map.mp hloc
    rw [List.mem_append, not_or, Option.mem_toList] at hout
    have hfree : fs.entry? (stagingName n :: dir) = none := by
      rw [entry?_eq_lookup (List.cons_ne_nil _ _), List.lookup_eq_none_iff]
      intro q hq
      have hne : stagingName n :: dir ≠ q.1 := by
        rintro heq
        exact hout.2 (heq ▸ List.mem_map_of_mem hq)
      simpa using hne
    simpa [hfree] using hout.1
  have hlength := hnodup.length_le_of_subset hused
  have hone : (fs.locate p).toOption.toList.length ≤ 1 := by
    cases (fs.locate p).toOption <;> simp
  simp only [List.length_map, List.length_range, List.length_append] at hlength
  omega

/-- A staging file is put where nothing is, and not where the path itself leads. -/
theorem freshPlace_spec (h : freshPlace? fs dir p = some loc) :
    fs.entry? loc = none ∧ fs.locate p ≠ .ok loc := by
  have hfound := List.find?_some h
  simp only [Bool.and_eq_true, Option.isNone_iff_eq_none, decide_eq_true_eq] at hfound
  refine ⟨hfound.1, ?_⟩
  intro hlocate
  exact hfound.2 (by rw [hlocate]; rfl)

/-! The course without troubles -/

theorem put_put (fs : FileSystem) (loc : Location) (d e : Entry) :
    (fs.put loc d).put loc e = fs.put loc e := by
  simp [put, List.filter_filter]

@[simp] theorem Course.final_after (c : Course) (state start : FileSystem) :
    (c.after state).final start = c.final state := by
  rw [Course.final, Course.final, Course.after, List.getLastD_cons]

@[simp] theorem Course.outcome_after (c : Course) (state : FileSystem) :
    (c.after state).outcome = c.outcome := rfl

theorem filled_put (hloc : loc ≠ []) (m : Nat) (old contents : List UInt8) :
    filled (fs.put loc (.file m old)) loc contents = fs.put loc (.file m contents) := by
  simp only [filled, entry?_put hloc, if_true, put_put]

theorem permitted_put (hloc : loc ≠ []) (mode : Option Nat) (m : Nat) (contents : List UInt8) :
    permitted (fs.put loc (.file m contents)) loc mode =
      fs.put loc (.file (mode.getD m) contents) := by
  cases mode <;> simp [permitted, entry?_put hloc, put_put]

theorem settle_none (state : FileSystem) (loc : Location) (mode : Option Nat) (p : Path) :
    settle none state loc mode p = (finish none (permitted state loc mode) loc p).after state := by
  cases mode <;> rfl

def finalMode (fs : FileSystem) (p : Path) : Nat :=
  (fs.fileMode? p).getD (fs.newMode newFileMode)

/-- There are more names to try than entries, so some staging file can be created. -/
theorem exists_stage (hdir : fs.locateDirectory (directoryOf p) = .ok dir) :
    ∃ loc staged, stage fs p = .ok (loc, staged) := by
  obtain ⟨loc, hloc⟩ := exists_freshPlace fs dir p
  rw [stage, hdir]
  simp only [bind, Except.bind, hloc]
  exact ⟨_, _, rfl⟩

/-- A staging file is empty and stands where nothing is and where the path does not lead. -/
theorem stage_eq_ok (h : stage fs p = .ok (loc, staged)) :
    (∃ dir, fs.locateDirectory (directoryOf p) = .ok dir) ∧ fs.entry? loc = none ∧
      fs.locate p ≠ .ok loc ∧
      ∃ m, staged = fs.put loc (.file m []) ∧ (fs.fileMode? p).getD m = finalMode fs p := by
  rw [stage, bind_eq_ok_iff] at h
  obtain ⟨dir, hdir, h⟩ := h
  split at h
  · cases h
  · rename_i place hplace
    cases h
    obtain ⟨hfree, hother⟩ := freshPlace_spec hplace
    refine ⟨⟨dir, hdir⟩, hfree, hother, _, rfl, ?_⟩
    rw [finalMode, isFile]
    cases fs.fileMode? p <;> simp

/-! When a replacement succeeds -/

/-- There is a directory for the staging file, and the path leads to a place for the
finished one. -/
structure Replaceable (fs : FileSystem) (p : Path) (loc : Location) : Prop where
  staging : ∃ dir, fs.locateDirectory (directoryOf p) = .ok dir
  destination : fs.Destination p loc

/-- Moving a staging file onto a destination leaves the old tree with the finished file in it. -/
theorem moveOver_put_iff {place : Location} (hfree : fs.entry? place = none) {mode : Nat}
    {contents : List UInt8} {after : FileSystem} :
    (fs.put place (.file mode contents)).moveOver place p = .ok after ↔
      ∃ loc, fs.Destination p loc ∧ after = fs.put loc (.file mode contents) := by
  have hplace := noDirectory_of_free hfree
  have hstaged := updated_put fs hplace.ne_root (.file mode contents)
  simp only [moveOver_eq_ok_iff, hstaged.destination_iff hplace, hstaged.entry?_self,
    erase_put hfree, Option.some.injEq]
  constructor
  · rintro ⟨loc, e, hloc, rfl, hafter⟩
    exact ⟨loc, hloc, hafter⟩
  · rintro ⟨loc, hloc, hafter⟩
    exact ⟨loc, _, hloc, rfl, hafter⟩

/-- Without troubles a replacement comes down to one move of the finished file. -/
theorem replaceFile_of_replaceable (h : Replaceable fs p loc) (contents : List UInt8) :
    fs.replaceFile p contents = (fs.put loc (.file (finalMode fs p) contents), .ok ()) := by
  obtain ⟨dir, hdir⟩ := h.staging
  obtain ⟨place, staged, hstage⟩ := exists_stage hdir
  obtain ⟨-, hfree, -, m, rfl, hmode⟩ := stage_eq_ok hstage
  have hplace : place ≠ [] := (noDirectory_of_free hfree).ne_root
  have hmove : (fs.put place (.file (finalMode fs p) contents)).moveOver place p =
      .ok (fs.put loc (.file (finalMode fs p) contents)) :=
    (moveOver_put_iff hfree).mpr ⟨loc, h.destination, rfl⟩
  have hcourse : course none fs p contents = ((((finish none
      (fs.put place (.file (finalMode fs p) contents)) place p).after
      (fs.put place (.file m contents))).after (fs.put place (.file m []))).after fs) := by
    simp only [course, troubleAt, Option.filter_none, Option.map_none, hstage, filled_put hplace,
      settle_none, permitted_put hplace, hmode]
  simp only [replaceFile, hcourse, Course.final_after, Course.outcome_after, finish, troubleAt,
    Option.filter_none, Option.map_none, hmove]
  rfl

/-! Replacements amid troubles -/

/-- Whatever the system does to a replacement, it ends with a fault and the tree that was
there before, or it has put the finished file where the path leads to. -/
theorem course_spec (trouble : Option Trouble) (fs : FileSystem) (p : Path)
    (contents : List UInt8) :
    (∃ e, (course trouble fs p contents).outcome = .error e ∧
      (course trouble fs p contents).final fs = fs) ∨
    ∃ loc, Replaceable fs p loc ∧ (course trouble fs p contents).outcome = .ok () ∧
      (course trouble fs p contents).final fs = fs.put loc (.file (finalMode fs p) contents) := by
  rw [course]
  split
  next => exact Or.inl ⟨_, rfl, rfl⟩
  next =>
    split
    next => exact Or.inl ⟨_, rfl, rfl⟩
    next loc staged hstage =>
      obtain ⟨hstaging, hfree, -, m, rfl, hmode⟩ := stage_eq_ok hstage
      have hloc : loc ≠ [] := (noDirectory_of_free hfree).ne_root
      simp only [Course.final_after, Course.outcome_after, filled_put hloc]
      split
      next => exact Or.inl ⟨_, rfl, erase_put hfree _⟩
      next =>
        rw [settle]
        split
        next => exact Or.inl ⟨_, rfl, erase_put hfree _⟩
        next => exact Or.inl ⟨_, rfl, erase_put hfree _⟩
        next =>
          rw [permitted_put hloc, hmode, Course.final_after, Course.outcome_after, finish]
          split
          next => exact Or.inl ⟨_, rfl, erase_put hfree _⟩
          next =>
            split
            next => exact Or.inl ⟨_, rfl, erase_put hfree _⟩
            next done hmove =>
              obtain ⟨place, hdestination, rfl⟩ := (moveOver_put_iff hfree).mp hmove
              exact Or.inr ⟨place, ⟨hstaging, hdestination⟩, rfl, rfl⟩

theorem replaceable_of_ok {contents : List UInt8} (h : (fs.replaceFile p contents).2 = .ok ()) :
    ∃ loc, Replaceable fs p loc := by
  rcases course_spec none fs p contents with ⟨e, houtcome, -⟩ | ⟨loc, hplace, -, -⟩
  · rw [replaceFile, houtcome] at h
    cases h
  · exact ⟨loc, hplace⟩

/-- A replacement that fails leaves the tree as it was, without a staging file. -/
theorem replaceFile_of_not_ok {contents : List UInt8} (h : (fs.replaceFile p contents).2 ≠ .ok ()) :
    (fs.replaceFile p contents).1 = fs := by
  rcases course_spec none fs p contents with ⟨e, -, hfinal⟩ | ⟨loc, -, houtcome, -⟩
  · exact hfinal
  · exact absurd houtcome h

/-- A replacement puts the file where the path leads to. -/
theorem updated_replaceFile (h : Replaceable fs p loc) (contents : List UInt8) :
    Updated fs loc (.file (finalMode fs p) contents) (fs.replaceFile p contents).1 := by
  rw [replaceFile_of_replaceable h]
  exact updated_put fs h.destination.free.ne_root _

/-- Changing a file takes no destination away. -/
theorem replaceable_iff {after : FileSystem} {place : Location} {mode : Nat}
    {contents : List UInt8} (h : Updated fs place (.file mode contents) after)
    (hdir : fs.NoDirectory place) : Replaceable after p loc ↔ Replaceable fs p loc := by
  constructor
  · rintro ⟨⟨dir, hstaging⟩, hdestination⟩
    exact ⟨⟨dir, (h.locateDirectory_iff hdir).mp hstaging⟩,
      (h.destination_iff hdir).mp hdestination⟩
  · rintro ⟨⟨dir, hstaging⟩, hdestination⟩
    exact ⟨⟨dir, (h.locateDirectory_iff hdir).mpr hstaging⟩,
      (h.destination_iff hdir).mpr hdestination⟩

end Replacement

end LayoutGuard
