import LayoutGuard.Proofs.Probe.Program
import LayoutGuard.Proofs.Text.Places

/-!
Which line of a program belongs to which entry. The map is read off the text of the
program, where definitions, the header name and the types may be any strings without line
feeds. The entries stand one after the other from the eighth line behind the definitions
on, each with its spelling as the operand of `sizeof`, and no other line has an entry.
-/

namespace LayoutGuard.Probe

open Text

variable {s : ProbeSettings} {r : Registry}

/-! The map of any text -/

/-- Looking a position up among numbered results is looking at the element there. -/
theorem lookup_filterMap_zipIdx {α : Type} (f : α → Option Nat) (as : List α)
    (start line : Nat) :
    ((as.zipIdx start).filterMap fun p => (f p.1).map fun i => (p.2, i)).lookup line =
      if start ≤ line then as[line - start]?.bind f else none := by
  induction as generalizing start with
  | nil => simp
  | cons a as ih =>
    rw [List.zipIdx_cons, List.filterMap_cons]
    by_cases hline : line = start
    · subst hline
      have hbehind : ¬line + 1 ≤ line := by omega
      cases hf : f a with
      | none => simp [ih, hf, hbehind]
      | some i => simp [hf]
    · have hne : (line == start) = false := by simpa using hline
      have hrest : ((as.zipIdx (start + 1)).filterMap fun p =>
          (f p.1).map fun i => (p.2, i)).lookup line =
            if start ≤ line then (a :: as)[line - start]?.bind f else none := by
        rw [ih]
        by_cases hle : start ≤ line
        · have hnext : start + 1 ≤ line := by omega
          have hindex : line - start = line - (start + 1) + 1 := by omega
          rw [if_pos hle, if_pos hnext, hindex, List.getElem?_cons_succ]
        · have hnext : ¬start + 1 ≤ line := by omega
          rw [if_neg hle, if_neg hnext]
      cases hf : f a with
      | none => simpa using hrest
      | some i => simpa [List.lookup_cons, hne] using hrest

theorem entryAtLine?_zero (program : List Char) : entryAtLine? program 0 = none := by
  rw [entryAtLine?, entryLines, lookup_filterMap_zipIdx]
  simp

theorem entryAtLine?_succ (program : List Char) (k : Nat) :
    entryAtLine? program (k + 1) = (Text.lines program)[k]?.bind printedIndex? := by
  rw [entryAtLine?, entryLines, lookup_filterMap_zipIdx]
  simp

/-! The lines of a program -/

/-- A line that begins otherwise prints no index. -/
theorem printedIndex?_of_quiet {line : List Char} (h : Quiet line) : printedIndex? line = none := by
  rw [printedIndex?, h.no_lead]
  rfl

/-- The index is read off the line of an entry. -/
theorem printedIndex?_entryLine (i : Nat) (spelling : String) :
    printedIndex? (entryLine i spelling) = if i < wordBound then some i else none := by
  have hdigits : ∀ c ∈ Decimal.render i, isDecimalDigit c = true :=
    fun _ => isDecimalDigit_of_mem_render
  have hcast : "u, (unsigned long long)sizeof(".toList =
    'u' :: ", (unsigned long long)sizeof(".toList := rfl
  have hunsigned : "u, (unsigned long long)sizeof(".toList =
    "u,".toList ++ " (unsigned long long)sizeof(".toList := rfl
  rw [printedIndex?, lead_entryLine]
  simp only [Option.bind_eq_bind, Option.bind_some]
  rw [hcast, List.cons_append, takeWhile_stop hdigits (by decide),
    dropWhile_stop hdigits (by decide), ← List.cons_append, ← hcast, hunsigned,
    List.append_assoc, literal?_append]
  simp only [Option.bind_some, Decimal.readBelow?, Decimal.read?_render]
  by_cases hi : i < wordBound
  · simp [hi]
  · rw [if_neg hi, Option.filter_some, if_neg (by simpa using hi)]

/-- The lines of the entries follow the definitions and seven fixed lines. -/
theorem getElem?_lines_entry {i : Nat} {b : Binding} (hb : r.bindings[i]? = some b) :
    (lines s r)[s.defines.length + 7 + i]? = some (entryLine i b.spelling) := by
  have hi : i < r.bindings.length := (List.getElem?_eq_some_iff.mp hb).1
  have hindex : s.defines.length + 7 + i - (s.defines.length + 7) = i := by omega
  have hbehind : ¬s.defines.length + 7 + i < s.defines.length + 7 := by omega
  rw [lines_eq, List.append_assoc, List.getElem?_append, length_opening, if_neg hbehind, hindex,
    List.getElem?_append_left (by simpa [Registry.spellings] using hi)]
  simp [Registry.spellings, hb]

/-- Only the line of an entry has an index on it, and that index is its own. -/
theorem position_of_printedIndex? {k i : Nat} {line : List Char}
    (hline : (lines s r)[k]? = some line) (hread : printedIndex? (dropReturn line) = some i) :
    i < r.size ∧ k = s.defines.length + 7 + i := by
  have hquiet : ¬Quiet (dropReturn line) := by
    intro h
    rw [printedIndex?_of_quiet h] at hread
    cases hread
  rw [lines_eq, List.append_assoc, List.getElem?_append, length_opening] at hline
  split at hline
  next hbefore => exact absurd (quiet_opening s line (List.mem_of_getElem? hline)) hquiet
  next hbehind =>
    rw [List.getElem?_append] at hline
    split at hline
    next hwithin =>
      rw [List.getElem?_map] at hline
      obtain ⟨⟨spelling, j⟩, hentry, rfl⟩ := Option.map_eq_some_iff.mp hline
      obtain ⟨_, -, hpair⟩ := Option.map_eq_some_iff.mp ((List.getElem?_zipIdx).symm.trans hentry)
      cases hpair
      have hsize : k - (s.defines.length + 7) < r.size := by
        simpa [Registry.spellings, Registry.size] using hwithin
      rw [dropReturn_entryLine, printedIndex?_entryLine, Option.ite_none_right_eq_some,
        Option.some.injEq] at hread
      omega
    next => exact absurd (quiet_closing line (List.mem_of_getElem? hline)) hquiet

/-- A line has an entry exactly when its number says so. -/
theorem entryAtLine?_text_iff (h : Lined s r) {line i : Nat} :
    entryAtLine? (text s r) line = some i ↔
      i < r.size ∧ i < wordBound ∧ line = s.defines.length + 8 + i := by
  cases line with
  | zero =>
    rw [entryAtLine?_zero]
    constructor
    · intro hnone
      cases hnone
    · rintro ⟨-, -, hline⟩
      omega
  | succ k =>
    rw [entryAtLine?_succ, lines_text h, List.getElem?_map, Option.bind_eq_some_iff]
    constructor
    · rintro ⟨_, hline, hread⟩
      obtain ⟨line, hat, rfl⟩ := Option.map_eq_some_iff.mp hline
      obtain ⟨hi, hk⟩ := position_of_printedIndex? hat hread
      obtain ⟨b, hb⟩ : ∃ b, r.bindings[i]? = some b := ⟨_, List.getElem?_eq_getElem hi⟩
      rw [hk, getElem?_lines_entry hb] at hat
      cases hat
      rw [dropReturn_entryLine, printedIndex?_entryLine, Option.ite_none_right_eq_some] at hread
      exact ⟨hi, hread.1, by omega⟩
    · rintro ⟨hi, hword, hline⟩
      obtain ⟨b, hb⟩ : ∃ b, r.bindings[i]? = some b := ⟨_, List.getElem?_eq_getElem hi⟩
      obtain rfl : k = s.defines.length + 7 + i := by omega
      refine ⟨entryLine i b.spelling, ?_, ?_⟩
      · rw [getElem?_lines_entry hb, Option.map_some, dropReturn_entryLine]
      · rw [printedIndex?_entryLine, if_pos hword]

/-! The operand on a line -/

/-- What stands between the first `sizeof(` of a line and the signs `));` at its end. -/
def sizeofOperand? (line : List Char) : Option (List Char) :=
  ((places none line).findSome? fun place => literal? "sizeof(" place.2).bind
    "));".toList.isSuffixOf?

theorem sizeofOperand?_entryLine (i : Nat) (spelling : String) :
    sizeofOperand? (entryLine i spelling) = some spelling.toList := by
  have hlead : 's' ∉ "    ".toList ++ entryLead ++ Decimal.render i := by
    have hfixed : 's' ∉ "    ".toList ++ entryLead := by decide
    have hdigits : 's' ∉ Decimal.render i := fun hmem => by
      have hdigit := Decimal.isDigit_of_mem_render hmem
      revert hdigit
      decide
    rw [List.mem_append, not_or]
    exact ⟨hfixed, hdigits⟩
  have hnone : ∀ v, v ≠ [] → v <:+ "    ".toList ++ entryLead ++ Decimal.render i →
      literal? "sizeof(" (v ++ ("u, (unsigned long long)sizeof(".toList ++
        (spelling.toList ++ "));".toList))) = none := by
    intro v hnil hv
    obtain ⟨c, v, rfl⟩ := List.exists_cons_of_ne_nil hnil
    have hc : ('s' == c) = false := by
      rw [beq_eq_false_iff_ne]
      rintro rfl
      exact hlead (hv.subset List.mem_cons_self)
    rw [literal?, List.cons_append]
    change (if ('s' == c) = true then _ else none) = none
    rw [hc]
    rfl
  have hopen (before : Option Char) (rest : List Char) :
      (places before ("u, (unsigned long long)sizeof(".toList ++ rest)).findSome?
        (fun place => literal? "sizeof(" place.2) = some rest := rfl
  rw [sizeofOperand?, entryLine_eq,
    findSome?_places_append (f := fun cs => literal? "sizeof(" cs) _ hnone, hopen, Option.bind_some]
  exact List.isSuffixOf?_eq_some_iff_append_eq.mpr rfl

/-! The map of a program -/

/-- A line of a program, counted from one, has an entry exactly if it stands that many lines
behind the definitions and the seven fixed lines, and then its `sizeof` is that of the entry.
So the map does not depend on any string in the program, only on how many definitions and
entries there are. -/
theorem entryAtLine?_of_lined (h : Lined s r) :
    (∀ (line : UInt64) (i : Nat), entryAtLine? (text s r) line.toNat = some i ↔
      i < r.size ∧ line.toNat = s.defines.length + 8 + i) ∧
    (∀ (line : UInt64) (i : Nat), entryAtLine? (text s r) line.toNat = some i →
      ∃ b l, r.bindings[i]? = some b ∧ (Text.lines (text s r))[line.toNat - 1]? = some l ∧
        sizeofOperand? l = some b.spelling.toList) ∧
    ∀ s' r', Lined s' r' → s'.defines.length = s.defines.length → r'.size = r.size →
      ∀ line : UInt64,
        entryAtLine? (text s' r') line.toNat = entryAtLine? (text s r) line.toNat := by
  have hmap {s : ProbeSettings} {r : Registry} (h : Lined s r) (line : UInt64) (i : Nat) :
      entryAtLine? (text s r) line.toNat = some i ↔
        i < r.size ∧ line.toNat = s.defines.length + 8 + i := by
    have hword : line.toNat < wordBound := line.toNat_lt
    rw [entryAtLine?_text_iff h]
    omega
  refine ⟨hmap h, ?_, ?_⟩
  · intro line i hline
    obtain ⟨hi, hposition⟩ := (hmap h line i).mp hline
    obtain ⟨b, hb⟩ : ∃ b, r.bindings[i]? = some b := ⟨_, List.getElem?_eq_getElem hi⟩
    have hindex : line.toNat - 1 = s.defines.length + 7 + i := by omega
    refine ⟨b, entryLine i b.spelling, hb, ?_, sizeofOperand?_entryLine i b.spelling⟩
    rw [hindex, lines_text h, List.getElem?_map, getElem?_lines_entry hb, Option.map_some,
      dropReturn_entryLine]
  · intro s' r' h' hdefines hsize line
    apply Option.ext
    intro i
    rw [hmap h', hmap h, hdefines, hsize]

/-- Strings that look like the line of an entry, with carriage returns in them. -/
def lookalikes : ProbeSettings :=
  ⟨none, "a.h\r    printf(\"%u %llu\\n\", 0u, (unsigned long long)sizeof(int));", [],
    ["NK_SIZE\n = 4096\r\n",
     "    printf(\"%u %llu\\n\", 1u, (unsigned long long)sizeof(int));"], []⟩

def lookalikeTypes : Registry :=
  ⟨[⟨⟨.typedef, "int));\r    printf(\"%u %llu\\n\", 1u, (unsigned long long)sizeof(long"⟩,
      "Long"⟩,
    ⟨⟨.struct, "nk_rect"⟩, "Rect"⟩]⟩

theorem lined_lookalikes : Lined lookalikes lookalikeTypes where
  defines := by decide +kernel
  header := by decide +kernel
  names := by decide +kernel

/-- Definitions and spellings that look like the line of an entry lead to no other entry. -/
theorem entryAtLine?_lookalikes :
    Lined lookalikes lookalikeTypes ∧
      entryAtLine? (text lookalikes lookalikeTypes) 3 = none ∧
      entryAtLine? (text lookalikes lookalikeTypes) 10 = some 0 ∧
      entryAtLine? (text lookalikes lookalikeTypes) 11 = some 1 := by
  obtain ⟨hmap, -, -⟩ := entryAtLine?_of_lined lined_lookalikes
  have hdefines : lookalikes.defines.length = 2 := rfl
  refine ⟨lined_lookalikes, ?_, (hmap 10 0).mpr (by decide), (hmap 11 1).mpr (by decide)⟩
  rw [Option.eq_none_iff_forall_ne_some]
  intro i hi
  have hline : 3 = lookalikes.defines.length + 8 + i := ((hmap 3 i).mp hi).2
  omega

end LayoutGuard.Probe
