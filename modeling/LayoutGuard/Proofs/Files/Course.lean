import Mathlib.Data.List.Basic
import LayoutGuard.Emission
import LayoutGuard.Proofs.Files.Replacement

/-!
What the path of a file leads to in the course of its replacement. Each state on the way
is the tree that was there, that tree with a staging file in the directory of the
destination, or that tree with the finished file. So the path leads to what was there or
to the whole contents with their final mode, whichever step fails.
-/

namespace LayoutGuard

namespace FileSystem

def seen (fs : FileSystem) (p : Path) : Option Entry :=
  (fs.status p).toOption

theorem seen_eq_some_iff {fs : FileSystem} {p : Path} {e : Entry} :
    fs.seen p = some e ↔ fs.status p = .ok e := by
  rw [seen]
  cases fs.status p <;> simp [Except.toOption]

namespace Updated

variable {fs after : FileSystem} {loc : Location} {mode : Nat} {contents : List UInt8} {p : Path}

theorem seen_self (h : Updated fs loc (.file mode contents) after) (hdir : fs.NoDirectory loc)
    (hp : fs.locate p = .ok loc) : after.seen p = some (.file mode contents) :=
  seen_eq_some_iff.mpr
    (status_eq_ok_iff.mpr ⟨loc, (h.locate_iff hdir).mpr hp, h.entry?_self⟩)

/-- A path that leads elsewhere sees nothing of a write. -/
theorem seen_other (h : Updated fs loc (.file mode contents) after) (hdir : fs.NoDirectory loc)
    (hp : fs.locate p ≠ .ok loc) : after.seen p = fs.seen p := by
  apply Option.ext
  intro e
  rw [seen_eq_some_iff, seen_eq_some_iff, h.status_iff hdir hp]

end Updated

end FileSystem

namespace Replacement

open FileSystem

variable {fs state : FileSystem} {p : Path} {loc : Location} {contents : List UInt8}

/-- A state in the course of a replacement. -/
inductive Moment (fs : FileSystem) (p : Path) (contents : List UInt8) : FileSystem → Prop
  | untouched : Moment fs p contents fs
  | staged {place : Location} {written : List UInt8} (mode : Nat)
      (hfree : fs.entry? place = none) (hother : fs.locate p ≠ .ok place)
      (hwritten : written <+: contents) :
      Moment fs p contents (fs.put place (.file mode written))
  | replaced {loc : Location} (hplace : Replaceable fs p loc) :
      Moment fs p contents (fs.put loc (.file (finalMode fs p) contents))

/-- A staging file is out of sight from the path of the destination. -/
theorem Moment.seen (h : Moment fs p contents state) :
    state.seen p = fs.seen p ∨ state.seen p = some (.file (finalMode fs p) contents) := by
  cases h with
  | untouched => exact Or.inl rfl
  | staged mode hfree hother =>
    have hplace := noDirectory_of_free hfree
    exact Or.inl ((updated_put fs hplace.ne_root _).seen_other hplace hother)
  | replaced hplace =>
    have hfree := hplace.destination.free
    exact Or.inr ((updated_put fs hfree.ne_root _).seen_self hfree hplace.destination.locate)

/-! The states of a course -/

section Staged

variable {place : Location} (hfree : fs.entry? place = none) (hother : fs.locate p ≠ .ok place)

include hfree hother

/-- A replacement that is given up takes its staging file away. -/
theorem moments_abandon {written : List UInt8} (mode : Nat) (hwritten : written <+: contents)
    (e : IoFault) :
    ∀ state ∈ (abandon (fs.put place (.file mode written)) place e).states,
      Moment fs p contents state := by
  intro state hstate
  rcases List.mem_pair.mp hstate with rfl | rfl
  · exact .staged mode hfree hother hwritten
  · rw [erase_put hfree]
    exact .untouched

theorem moments_finish (hstaging : ∃ dir, fs.locateDirectory (directoryOf p) = .ok dir)
    (trouble : Option Trouble) :
    ∀ state ∈ (finish trouble (fs.put place (.file (finalMode fs p) contents)) place p).states,
      Moment fs p contents state := by
  rw [finish]
  split
  next => exact moments_abandon hfree hother _ List.prefix_rfl _
  next =>
    split
    next => exact moments_abandon hfree hother _ List.prefix_rfl _
    next done hmove =>
      obtain ⟨loc, hdestination, rfl⟩ := (moveOver_put_iff hfree).mp hmove
      intro state hstate
      rcases List.mem_pair.mp hstate with rfl | rfl
      · exact .staged _ hfree hother List.prefix_rfl
      · exact .replaced ⟨hstaging, hdestination⟩

/-- The file has its mode before it is moved. -/
theorem moments_settle (hstaging : ∃ dir, fs.locateDirectory (directoryOf p) = .ok dir)
    {mode : Nat} (hmode : (fs.fileMode? p).getD mode = finalMode fs p)
    (trouble : Option Trouble) :
    ∀ state ∈ (settle trouble (fs.put place (.file mode contents)) place (fs.fileMode? p) p).states,
      Moment fs p contents state := by
  have hplace : place ≠ [] := (noDirectory_of_free hfree).ne_root
  rw [settle]
  split
  next => exact moments_abandon hfree hother _ List.prefix_rfl _
  next => exact moments_abandon hfree hother _ List.prefix_rfl _
  next =>
    rw [permitted_put hplace, hmode]
    intro state hstate
    rcases List.mem_cons.mp hstate with rfl | hstate
    · exact .staged _ hfree hother List.prefix_rfl
    · exact moments_finish hfree hother hstaging trouble state hstate

end Staged

/-- Every state of a course is the old tree, the old tree with a staging file, or the new tree. -/
theorem moments_course (trouble : Option Trouble) (fs : FileSystem) (p : Path)
    (contents : List UInt8) :
    ∀ state ∈ (course trouble fs p contents).states, Moment fs p contents state := by
  rw [course]
  split
  next =>
    intro state hstate
    rw [List.mem_singleton.mp hstate]
    exact .untouched
  next =>
    split
    next =>
      intro state hstate
      rw [List.mem_singleton.mp hstate]
      exact .untouched
    next place staged hstage =>
      obtain ⟨hstaging, hfree, hother, mode, rfl, hmode⟩ := stage_eq_ok hstage
      have hplace : place ≠ [] := (noDirectory_of_free hfree).ne_root
      intro state hstate
      rcases List.mem_cons.mp hstate with rfl | hstate
      · exact .untouched
      rcases List.mem_cons.mp hstate with rfl | hstate
      · exact .staged mode hfree hother List.nil_prefix
      simp only [filled_put hplace] at hstate
      split at hstate
      next => exact moments_abandon hfree hother mode (List.take_prefix _ _) _ state hstate
      next => exact moments_settle hfree hother hstaging hmode trouble state hstate

/-! When the system makes a replacement fail -/

/-- The system raises the fault at a step that the replacement takes. A mode is given only
to a file that replaces another one. -/
def Strikes (trouble : Option Trouble) (fs : FileSystem) (p : Path) : Prop :=
  ∃ t ∈ trouble, t.step = .permit → fs.isFile p = true

theorem troubleAt_some (t : Trouble) (s : Step) :
    troubleAt (some t) s = if t.step = s then some t.fault else none := by
  by_cases h : t.step = s <;> simp [troubleAt, h]

/-- A replacement that succeeds met no trouble at any of its steps. -/
theorem not_strikes_of_ok {trouble : Option Trouble}
    (h : (course trouble fs p contents).outcome = .ok ()) : ¬Strikes trouble fs p := by
  rintro ⟨t, rfl, hpermit⟩
  have hraised : troubleAt (some t) t.step = some t.fault := by rw [troubleAt_some, if_pos rfl]
  rw [course] at h
  split at h
  next => cases h
  next hstage =>
    split at h
    next => cases h
    next =>
      simp only [Course.outcome_after] at h
      split at h
      next => cases h
      next hfill =>
        rw [settle] at h
        split at h
        next => cases h
        next => cases h
        next hflush hmode =>
          rw [Course.outcome_after, finish] at h
          split at h
          next => cases h
          next hswap =>
            cases hstep : t.step with
            | stage => cases hraised.symm.trans (hstep ▸ hstage)
            | fill => cases hraised.symm.trans (hstep ▸ hfill)
            | flush => cases hraised.symm.trans (hstep ▸ hflush)
            | swap => cases hraised.symm.trans (hstep ▸ hswap)
            | permit =>
              obtain ⟨mode, hfile⟩ := Option.isSome_iff_exists.mp (hpermit hstep)
              rw [hfile, Option.bind_some, ← hstep, hraised] at hmode
              cases hmode

/-- Trouble at a step that the replacement does not take changes nothing. -/
theorem course_of_not_strikes {trouble : Option Trouble} (h : ¬Strikes trouble fs p) :
    course trouble fs p contents = course none fs p contents := by
  cases trouble with
  | none => rfl
  | some t =>
    have hstep : t.step = .permit := by
      by_contra hother
      exact h ⟨t, rfl, fun hpermit => absurd hpermit hother⟩
    have hnew : fs.fileMode? p = none := by
      by_contra hfile
      exact h ⟨t, rfl, fun _ => Option.isSome_iff_ne_none.mpr hfile⟩
    have hcalm {s : Step} (hs : .permit ≠ s) : troubleAt (some t) s = troubleAt none s := by
      rw [troubleAt_some, hstep, if_neg hs]
      rfl
    simp only [course, settle, finish, hnew, Option.bind_none, hcalm (s := .stage) (by decide),
      hcalm (s := .fill) (by decide), hcalm (s := .flush) (by decide),
      hcalm (s := .swap) (by decide)]
    rfl

/-- Only the tree and trouble at a step that is taken decide whether a replacement succeeds. -/
theorem outcome_eq_ok_iff {trouble : Option Trouble} :
    (course trouble fs p contents).outcome = .ok () ↔
      (∃ loc, Replaceable fs p loc) ∧ ¬Strikes trouble fs p := by
  constructor
  · intro h
    refine ⟨?_, not_strikes_of_ok h⟩
    rcases course_spec trouble fs p contents with ⟨e, houtcome, -⟩ | ⟨loc, hplace, -, -⟩
    · rw [houtcome] at h
      cases h
    · exact ⟨loc, hplace⟩
  · rintro ⟨⟨loc, hplace⟩, hcalm⟩
    rw [course_of_not_strikes hcalm]
    exact congrArg Prod.snd (replaceFile_of_replaceable hplace contents)

end Replacement

open Replacement

def FileSystem.writeAmid (trouble : Option Trouble) (fs : FileSystem) (p : Path)
    (contents : List UInt8) : FileSystem × Except Fault Unit :=
  let c := course trouble fs p contents
  (c.final fs, c.outcome.mapError (.writeFailed p))

theorem FileSystem.writeAmid_none (fs : FileSystem) (p : Path) (contents : List UInt8) :
    fs.writeAmid none p contents = fs.writeAtomically p contents := rfl

/-- Whatever the tree, the path and the contents are, and whichever step the system makes
fail: in each state on the way the path leads to what was there or to a file with the whole
contents and its final mode. A replacement that fails says for which path and leaves the
tree as it was. One that succeeds has put that file where the path leads to and changed
nothing else. It succeeds exactly when there is a directory for the staging file, the path
leads to a place for the file, and no step fails. -/
theorem FileSystem.writeAmid_all_or_nothing (trouble : Option Trouble) (fs : FileSystem)
    (p : Path) (contents : List UInt8) :
    let mode := (fs.fileMode? p).getD (fs.newMode 0o644)
    (∀ state ∈ (course trouble fs p contents).states,
      state.seen p = fs.seen p ∨ state.seen p = some (.file mode contents)) ∧
    (match fs.writeAmid trouble p contents with
      | (after, .error f) => after = fs ∧ ∃ e, f = .writeFailed p e
      | (after, .ok ()) => after.seen p = some (.file mode contents) ∧
          ∃ loc, fs.locate p = .ok loc ∧ Updated fs loc (.file mode contents) after) ∧
    ((fs.writeAmid trouble p contents).2 = .ok () ↔
      (∃ loc, Replaceable fs p loc) ∧ ¬Strikes trouble fs p) := by
  refine ⟨fun state hstate => (moments_course trouble fs p contents state hstate).seen, ?_, ?_⟩
  · rcases course_spec trouble fs p contents with
      ⟨e, houtcome, hfinal⟩ | ⟨loc, hplace, houtcome, hfinal⟩
    · rw [writeAmid, houtcome, hfinal]
      exact ⟨rfl, e, rfl⟩
    · have hfree := hplace.destination.free
      have hupdated := updated_put fs hfree.ne_root (.file (finalMode fs p) contents)
      rw [writeAmid, houtcome, hfinal]
      exact ⟨hupdated.seen_self hfree hplace.destination.locate, loc, hplace.destination.locate,
        hupdated⟩
  · have houtcome : (course trouble fs p contents).outcome = .ok () ↔
        (∃ loc, Replaceable fs p loc) ∧ ¬Strikes trouble fs p := outcome_eq_ok_iff
    rw [← houtcome, writeAmid]
    cases (course trouble fs p contents).outcome with
    | error e => simp [Except.mapError]
    | ok _ => simp [Except.mapError]

end LayoutGuard
