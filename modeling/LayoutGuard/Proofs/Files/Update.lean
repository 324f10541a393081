import Mathlib.Data.List.Basic
import LayoutGuard.Proofs.Files.Reading

/-!
Changing one place of a file tree. When a file appears or is replaced at a place
that holds no directory, every path leads where it led before, and what it leads to
has changed only if that is the place itself.
-/

namespace LayoutGuard.FileSystem

variable {fs after : FileSystem} {loc : Location} {e : Entry}

/-! Looking up entries -/

theorem lookup_filter_ne (entries : List (Location × Entry)) (loc l : Location) :
    (entries.filter fun p => p.1 ≠ loc).lookup l =
      if l = loc then none else entries.lookup l := by
  induction entries with
  | nil => simp
  | cons p entries ih =>
    obtain ⟨k, e⟩ := p
    by_cases hk : k = loc
    · have hdrop : ((k, e) :: entries).filter (fun p => p.1 ≠ loc) =
          entries.filter fun p => p.1 ≠ loc := by simp [hk]
      rw [hdrop, ih]
      by_cases hl : l = loc
      · rw [if_pos hl, if_pos hl]
      · have hne : (l == k) = false := by simpa [hk] using hl
        rw [if_neg hl, if_neg hl, List.lookup_cons, hne]
    · have hkeep : ((k, e) :: entries).filter (fun p => p.1 ≠ loc) =
          (k, e) :: entries.filter fun p => p.1 ≠ loc := by simp [hk]
      rw [hkeep, List.lookup_cons, List.lookup_cons, ih]
      by_cases hl : l = k
      · simp [hl, hk]
      · have hne : (l == k) = false := by simpa using hl
        rw [hne]

theorem entry?_eq_lookup {l : Location} (hl : l ≠ []) : fs.entry? l = fs.entries.lookup l := by
  cases l with
  | nil => exact absurd rfl hl
  | cons n l => rfl

@[simp] theorem entry?_root : fs.entry? [] = some (.directory 0o755) := rfl

/-- What is put at a place is found there, and all other places keep their entries. -/
theorem entry?_put (hloc : loc ≠ []) (e : Entry) (l : Location) :
    entry? (fs.put loc e) l = if l = loc then some e else fs.entry? l := by
  by_cases hl : l = []
  · rw [hl, if_neg (Ne.symm hloc)]
    rfl
  · rw [entry?_eq_lookup hl, put, List.lookup_cons, lookup_filter_ne, entry?_eq_lookup hl]
    by_cases h : l = loc
    · simp [h]
    · have hne : (l == loc) = false := by simpa using h
      rw [hne, if_neg h, if_neg h]

/-- Taking away what was put at a free place gives the same tree again. -/
theorem erase_put (hfree : fs.entry? loc = none) (e : Entry) : (fs.put loc e).erase loc = fs := by
  have hloc : loc ≠ [] := by
    rintro rfl
    simp at hfree
  rw [entry?_eq_lookup hloc, List.lookup_eq_none_iff] at hfree
  have hall : fs.entries.filter (fun p => p.1 ≠ loc) = fs.entries := by
    apply List.filter_eq_self.mpr
    intro p hp
    have hne : loc ≠ p.1 := by simpa using hfree p hp
    simpa using hne.symm
  simp only [erase, put, List.filter_cons, ne_eq, not_true_eq_false, decide_false,
    Bool.false_eq_true, if_false]
  simp only [ne_eq] at hall
  rw [hall, hall]

/-! Trees that differ in one place -/

/-- `after` has the entry `e` at the place `loc` and is like `fs` otherwise. -/
structure Updated (fs : FileSystem) (loc : Location) (e : Entry) (after : FileSystem) : Prop where
  current : after.current = fs.current
  umask : after.umask = fs.umask
  lookup : ∀ l, after.entry? l = if l = loc then some e else fs.entry? l

theorem updated_put (fs : FileSystem) (hloc : loc ≠ []) (e : Entry) : Updated fs loc e (fs.put loc e) :=
  ⟨rfl, rfl, entry?_put hloc e⟩

def NoDirectory (fs : FileSystem) (loc : Location) : Prop :=
  ∀ m, fs.entry? loc ≠ some (.directory m)

theorem noDirectory_of_free (h : fs.entry? loc = none) : fs.NoDirectory loc := by
  simp [NoDirectory, h]

theorem NoDirectory.ne_root (h : fs.NoDirectory loc) : loc ≠ [] := by
  rintro rfl
  exact h _ rfl

namespace Updated

theorem entry?_self (h : Updated fs loc e after) : after.entry? loc = some e := by
  rw [h.lookup, if_pos rfl]

theorem entry?_of_ne (h : Updated fs loc e after) {l : Location} (hl : l ≠ loc) :
    after.entry? l = fs.entry? l := by
  rw [h.lookup, if_neg hl]

/-- Of two changes of one place the later one stays. -/
theorem trans {mid : FileSystem} {d : Entry} (h : Updated fs loc d mid)
    (hnext : Updated mid loc e after) : Updated fs loc e after where
  current := hnext.current.trans h.current
  umask := hnext.umask.trans h.umask
  lookup l := by
    rw [hnext.lookup, h.lookup]
    split <;> rfl

variable {mode : Nat} {contents : List UInt8}

theorem enter_iff (h : Updated fs loc (.file mode contents) after) (hdir : fs.NoDirectory loc)
    (l x : Location) : after.enter l = .ok x ↔ fs.enter l = .ok x := by
  by_cases hl : l = loc
  · subst hl
    have hbefore : ∀ y, fs.enter l ≠ .ok y := by
      intro y
      rw [enter]
      match hx : fs.entry? l with
      | none => simp
      | some (.file _ _) => simp
      | some (.directory m) => exact absurd hx (hdir m)
    have hafter : after.enter l = .error .notADirectory := by rw [enter, h.entry?_self]
    rw [hafter]
    constructor
    · intro hx
      cases hx
    · intro hx
      exact absurd hx (hbefore x)
  · rw [enter, enter, h.entry?_of_ne hl]

/-- A file that is written opens and closes no way through directories. -/
theorem descend_iff (h : Updated fs loc (.file mode contents) after) (hdir : fs.NoDirectory loc)
    (segments : List (List Char)) (l x : Location) :
    after.descend l segments = .ok x ↔ fs.descend l segments = .ok x := by
  induction segments generalizing l with
  | nil => rfl
  | cons s rest ih =>
    rw [descend, descend]
    have hstep := h.enter_iff hdir l
    cases hafter : after.enter l with
    | error a =>
      cases hbefore : fs.enter l with
      | error b => constructor <;> intro hx <;> cases hx
      | ok y =>
        rw [(hstep y).mpr hbefore] at hafter
        cases hafter
    | ok y =>
      rw [(hstep y).mp hafter]
      cases hnext : follow y s with
      | error a => simp only [bind, Except.bind, hnext]
      | ok next =>
        simp only [bind, Except.bind, hnext]
        exact ih next

theorem base (h : Updated fs loc e after) (p : Path) : after.base p = fs.base p := by
  rw [FileSystem.base, FileSystem.base, h.current]

/-- Paths lead where they led before a file was written. -/
theorem locate_iff (h : Updated fs loc (.file mode contents) after) (hdir : fs.NoDirectory loc)
    {p : Path} {l : Location} : after.locate p = .ok l ↔ fs.locate p = .ok l := by
  rw [locate_eq_ok_iff, locate_eq_ok_iff, h.base, h.descend_iff hdir]

/-! What the path of the place and other paths lead to -/

section Elsewhere

variable {q : Path} (h : Updated fs loc (.file mode contents) after) (hdir : fs.NoDirectory loc)

include h hdir

theorem contentsOf_self (hq : fs.locate q = .ok loc) : after.contentsOf q = .ok contents := by
  rw [contentsOf_eq_ok_iff]
  exact ⟨mode, status_eq_ok_iff.mpr ⟨loc, (h.locate_iff hdir).mpr hq, h.entry?_self⟩⟩

variable (hq : fs.locate q ≠ .ok loc)

include hq

/-- A path to another place leads to what it led to before. -/
theorem status_iff {x : Entry} : after.status q = .ok x ↔ fs.status q = .ok x := by
  simp only [status_eq_ok_iff, h.locate_iff hdir]
  refine exists_congr fun l => and_congr_right fun hl => ?_
  rw [h.entry?_of_ne]
  rintro rfl
  exact hq hl

theorem readText_iff {s : String} : after.readText q = .ok s ↔ fs.readText q = .ok s := by
  simp only [readText_eq_ok_iff, contentsOf_eq_ok_iff, h.status_iff hdir hq]

theorem isFile_eq : after.isFile q = fs.isFile q := by
  rw [Bool.eq_iff_iff, isFile_iff, isFile_iff]
  simp only [h.status_iff hdir hq]

end Elsewhere

end Updated

end LayoutGuard.FileSystem
