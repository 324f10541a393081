import Mathlib.Data.List.Basic
import LayoutGuard.Emission
import LayoutGuard.Files.FileSystem
import LayoutGuard.Proofs.Traversal

/-!
When reading a path succeeds, and with what. A path is located first, then the
entry at its place is looked at, and a text file holds exactly the bytes of the
text that is read from it.
-/

namespace LayoutGuard

/-- A text is read from exactly those bytes that it is written as. -/
theorem fromUTF8?_eq_some_iff (bs : List UInt8) (s : String) :
    String.fromUTF8? ⟨bs.toArray⟩ = some s ↔ bs = fileBytes s := by
  unfold String.fromUTF8?
  constructor
  · intro h
    split at h
    · cases h
      rfl
    · cases h
  · rintro rfl
    exact dif_pos s.isValidUTF8

namespace FileSystem

variable {fs : FileSystem} {p q : Path}

/-- A path leads to a place when its text is one of a path and its segments can be followed. -/
theorem locate_eq_ok_iff {loc : Location} :
    fs.locate p = .ok loc ↔ checkPath p = .ok () ∧ fs.descend (fs.base p) p.segments = .ok loc := by
  simp only [locate, bind_eq_ok_iff, mapError_eq_ok_iff]
  constructor
  · rintro ⟨⟨⟩, hchecked, hdescend⟩
    exact ⟨hchecked, hdescend⟩
  · rintro ⟨hchecked, hdescend⟩
    exact ⟨(), hchecked, hdescend⟩

def SamePlace (fs : FileSystem) (p q : Path) : Prop :=
  ∃ loc, fs.locate p = .ok loc ∧ fs.locate q = .ok loc

theorem status_eq_ok_iff {e : Entry} :
    fs.status p = .ok e ↔ ∃ loc, fs.locate p = .ok loc ∧ fs.entry? loc = some e := by
  rw [status, bind_eq_ok_iff]
  refine exists_congr fun loc => and_congr_right fun _ => ?_
  cases fs.entry? loc <;> simp

theorem contentsOf_eq_ok_iff {bs : List UInt8} :
    fs.contentsOf p = .ok bs ↔ ∃ mode, fs.status p = .ok (.file mode bs) := by
  rw [contentsOf, bind_eq_ok_iff]
  constructor
  · rintro ⟨e, he, hbs⟩
    cases e with
    | directory m => cases hbs
    | file m cs =>
      cases hbs
      exact ⟨m, he⟩
  · rintro ⟨m, hm⟩
    exact ⟨_, hm, rfl⟩

/-- Reading a text is finding its bytes in a file. -/
theorem readText_eq_ok_iff {s : String} :
    fs.readText p = .ok s ↔ fs.contentsOf p = .ok (fileBytes s) := by
  rw [readText, bind_eq_ok_iff]
  constructor
  · rintro ⟨bs, hbs, hs⟩
    split at hs
    · cases hs
    · rename_i text htext
      cases hs
      rw [hbs, (fromUTF8?_eq_some_iff bs s).mp htext]
  · intro h
    exact ⟨_, h, by rw [(fromUTF8?_eq_some_iff (fileBytes s) s).mpr rfl]⟩

theorem fileMode?_eq_some_iff {mode : Nat} :
    fs.fileMode? p = some mode ↔ ∃ bs, fs.status p = .ok (.file mode bs) := by
  rw [fileMode?]
  cases fs.status p with
  | error f => simp
  | ok e => cases e <;> simp

theorem isFile_iff : fs.isFile p = true ↔ ∃ mode bs, fs.status p = .ok (.file mode bs) := by
  simp only [isFile, Option.isSome_iff_exists, fileMode?_eq_some_iff]

end FileSystem

end LayoutGuard
