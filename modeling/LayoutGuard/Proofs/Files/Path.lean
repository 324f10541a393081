import Mathlib.Data.List.Basic
import LayoutGuard.Files.Path
import LayoutGuard.Proofs.Text.Blank

/-!
Joining paths. An absolute path is the same from everywhere. Any other is put behind the
text of the base and one slash at most, and whether that slash is needed depends on the
base alone, so joining with a joined base is joining twice.
-/

namespace LayoutGuard.Path

variable {base p q : Path}

theorem ext_toList (h : p.text.toList = q.text.toList) : p = q :=
  congrArg mk (String.toList_inj.mp h)

theorem join_of_absolute (base : Path) (h : p.isAbsolute = true) : base.join p = p := by
  rw [join, if_pos h]

/-- The slash that joining puts behind a base, if it puts one. -/
def slashBehind (cs : List Char) : List Char :=
  if cs = [] ∨ cs.getLast? = some '/' then [] else ['/']

theorem slashBehind_append (u : List Char) {v : List Char} (hv : v ≠ []) :
    slashBehind (u ++ v) = slashBehind v := by
  simp only [slashBehind, List.append_eq_nil_iff, hv, and_false, false_or,
    List.getLast?_append_of_ne_nil u hv]

/-- A second slash is never put. -/
theorem slashBehind_append_self (cs : List Char) : slashBehind (cs ++ slashBehind cs) = [] := by
  by_cases h : cs = [] ∨ cs.getLast? = some '/'
  · rw [slashBehind, slashBehind, if_pos h, List.append_nil, if_pos h]
  · have hslash : slashBehind cs = ['/'] := if_neg h
    rw [hslash, slashBehind_append cs (List.cons_ne_nil _ _)]
    rfl

/-- The text of a base as it stands in front of what is joined to it. -/
def separated (base : Path) : List Char :=
  base.text.toList ++ slashBehind base.text.toList

/-- Joining puts the base, set off by a slash, in front of the text of the path. -/
theorem toList_text_join (base : Path) (h : p.isAbsolute = false) :
    (base.join p).text.toList = base.separated ++ p.text.toList := by
  have hneg : ¬p.isAbsolute = true := by simp [h]
  have hslash : (base.isEmpty || base.text.toList.getLast? = some '/') = true ↔
      base.text.toList = [] ∨ base.text.toList.getLast? = some '/' := by simp [isEmpty]
  rw [join, if_neg hneg, separated, slashBehind]
  by_cases hclosed : base.text.toList = [] ∨ base.text.toList.getLast? = some '/'
  · rw [if_pos (hslash.mpr hclosed), if_pos hclosed, List.append_nil, String.toList_append]
  · rw [if_neg fun e => hclosed (hslash.mp e), if_neg hclosed, String.toList_append,
      String.toList_append]
    rfl

theorem separated_join (base : Path) (h : p.isAbsolute = false) :
    (base.join p).separated = base.separated ++ p.separated := by
  rw [separated, toList_text_join base h, separated, separated]
  by_cases hp : p.text.toList = []
  · rw [hp, List.append_nil, slashBehind_append_self]
    rfl
  · rw [slashBehind_append _ hp, List.append_assoc]

/-- Whether a joined path is absolute is decided by its base. -/
theorem isAbsolute_join (h : q.isAbsolute = false) (hp : p.isEmpty = false) :
    (p.join q).isAbsolute = p.isAbsolute := by
  have hhead : (p.join q).text.toList.head? = p.text.toList.head? := by
    have hnil : p.text.toList ≠ [] := by simpa [isEmpty] using hp
    rw [toList_text_join p h, separated, List.append_assoc, List.head?_append_of_ne_nil _ hnil]
  rw [isAbsolute, isAbsolute, hhead]

/-- Joining is associative, unless the middle path has no text. -/
theorem join_join (base : Path) (hp : p.isEmpty = false) :
    base.join (p.join q) = (base.join p).join q := by
  cases hq : q.isAbsolute with
  | true => rw [join_of_absolute p hq, join_of_absolute base hq, join_of_absolute _ hq]
  | false =>
    have hsame := isAbsolute_join hq hp
    cases habs : p.isAbsolute with
    | true => rw [join_of_absolute base (hsame.trans habs), join_of_absolute base habs]
    | false =>
      apply ext_toList
      rw [toList_text_join base (hsame.trans habs), toList_text_join p hq,
        toList_text_join (base.join p) hq, separated_join base habs, List.append_assoc]

/-- A base is the same with a slash behind it. -/
theorem join_join_of_isEmpty (base : Path) (hp : p.isEmpty = true) :
    (base.join p).join q = base.join q := by
  have hnil : p.text.toList = [] := List.isEmpty_iff.mp hp
  have hrelative : p.isAbsolute = false := by
    rw [isAbsolute, hnil]
    rfl
  have hseparated : p.separated = [] := by
    rw [separated, hnil]
    rfl
  cases hq : q.isAbsolute with
  | true => rw [join_of_absolute base hq, join_of_absolute _ hq]
  | false =>
    apply ext_toList
    rw [toList_text_join _ hq, toList_text_join _ hq, separated_join base hrelative,
      hseparated, List.append_nil]

/-! The directory of a path -/

/-- The directory of a file is its parent, and for a bare name there is none. -/
theorem directory?_of_parent? {parent : Path} (h : p.parent? = some parent) :
    p.directory? = if parent.isEmpty = true then none else some parent := by
  rw [directory?, h]
  cases hempty : parent.isEmpty with
  | true => simp [hempty]
  | false => simp [hempty]

theorem segments_of_no_slash (h : '/' ∉ p.text.toList) : p.segments = [p.text.toList] :=
  List.splitOn_eq_singleton h

theorem no_slash_of_name? {name : Path} (h : p.name? = some name) : '/' ∉ name.text.toList := by
  obtain ⟨s, hs, rfl⟩ := Option.map_eq_some_iff.mp h
  have hlast := (Option.filter_eq_some_iff.mp hs).1
  have hmem : s ∈ p.segments := (List.mem_filter.mp (List.mem_of_getLast? hlast)).1
  rw [String.toList_ofList]
  exact Text.not_mem_of_mem_splitOn hmem

/-- The name of a file is in no directory that has a name. -/
theorem directory?_of_name? {name : Path} (h : p.name? = some name) : name.directory? = none := by
  have hslash := no_slash_of_name? h
  refine directory?_of_segments ?_ (segments_of_no_slash hslash)
  rw [isAbsolute, decide_eq_false_iff_not]
  exact fun hhead => hslash (List.mem_of_head? hhead)

end LayoutGuard.Path
