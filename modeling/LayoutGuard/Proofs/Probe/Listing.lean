import Mathlib.Data.List.Basic
import Mathlib.Data.List.Perm.Basic
import LayoutGuard.Probe.Measurement
import LayoutGuard.Proofs.AssertionFile.Document
import LayoutGuard.Proofs.ByPosition
import LayoutGuard.Proofs.SizeTable
import LayoutGuard.Proofs.Text.Blank
import LayoutGuard.Proofs.Text.Utf8

/-!
Reading the listing of a probe that printed one line for each entry. Every line is read
back as its index and size, in whatever order the lines come and with whatever white space
around them. If no size is zero then the table that is filled has a usable size for every
entry.
-/

namespace LayoutGuard.Probe

open Text

/-! One line -/

def printedEntry (i : Nat) (n : UInt64) : List Char :=
  Decimal.render i ++ ' ' :: Decimal.render n.toNat

theorem ascii_of_isDigit {c : Char} (h : isDigit c = true) : c.toNat < 128 := by
  simp only [isDigit, Bool.and_eq_true, decide_eq_true_eq, Char.le_def, UInt32.le_iff_toNat_le] at h
  have hnine : c.toNat ≤ 57 := h.2
  omega

theorem isDecimalDigit_of_isDigit {c : Char} (h : isDigit c = true) : isDecimalDigit c = true := by
  rw [isDecimalDigit, if_pos (ascii_of_isDigit h), h]

theorem isDecimalDigit_of_mem_render {n : Nat} {c : Char} (hc : c ∈ Decimal.render n) :
    isDecimalDigit c = true :=
  isDecimalDigit_of_isDigit (Decimal.isDigit_of_mem_render hc)

theorem digitPair?_printedEntry (i : Nat) (n : UInt64) :
    digitPair? (printedEntry i n) = some (Decimal.render i, Decimal.render n.toNat) := by
  have hspace : isDecimalDigit ' ' = false := by decide
  have hall : ∀ c ∈ Decimal.render n.toNat, isDecimalDigit c = true :=
    fun c => isDecimalDigit_of_mem_render
  rw [digitPair?, printedEntry, takeWhile_stop (fun c => isDecimalDigit_of_mem_render) hspace,
    dropWhile_stop (fun c => isDecimalDigit_of_mem_render) hspace]
  simp [char?, Decimal.render_ne_nil]
  rw [guard, if_pos hall]
  rfl

/-- The line of an entry is read back as its index and size. -/
theorem readLine_printedEntry {count i : Nat} (n : UInt64) (hi : i < count)
    (hword : i < wordBound) :
    readLine count (printedEntry i n) = .ok (i, n) := by
  have hn : n.toNat < wordBound := n.toNat_lt
  rw [readLine, digitPair?_printedEntry]
  simp [Decimal.readBelow?_render hword, Decimal.readBelow?_render hn, hi]

theorem isDigit_head?_printedEntry (i : Nat) (n : UInt64) :
    ∀ c ∈ (printedEntry i n).head?, isDigit c = true := by
  intro c hc
  apply Decimal.isDigit_of_mem_render (n := i)
  rw [printedEntry, List.head?_append_of_ne_nil _ (Decimal.render_ne_nil i)] at hc
  exact List.mem_of_mem_head? hc

theorem isDigit_getLast?_printedEntry (i : Nat) (n : UInt64) :
    ∀ c ∈ (printedEntry i n).getLast?, isDigit c = true := by
  intro c hc
  apply Decimal.isDigit_of_mem_render (n := n.toNat)
  rw [printedEntry, List.getLast?_append_cons,
    List.getLast?_cons_of_ne_nil (Decimal.render_ne_nil _)] at hc
  exact List.mem_of_getLast? hc

theorem mem_printedEntry {i : Nat} {n : UInt64} {c : Char} (hc : c ∈ printedEntry i n) :
    isDigit c = true ∨ c = ' ' := by
  rw [printedEntry, List.mem_append, List.mem_cons] at hc
  rcases hc with hc | hc | hc
  · exact Or.inl (Decimal.isDigit_of_mem_render hc)
  · exact Or.inr hc
  · exact Or.inl (Decimal.isDigit_of_mem_render hc)

/-- A line that stays as it is when a listing is cut into lines and trimmed. -/
structure Solid (l : List Char) : Prop where
  nonempty : l ≠ []
  no_feed : '\n' ∉ l
  trimmed : trim l = l

theorem solid_printedEntry (i : Nat) (n : UInt64) : Solid (printedEntry i n) where
  nonempty := by simp [printedEntry]
  no_feed := by
    intro hmem
    rcases mem_printedEntry hmem with h | h <;> revert h <;> decide
  trimmed := by
    apply trim_eq_self
    · exact fun c hc => isBlank_of_isDigit (isDigit_head?_printedEntry i n c hc)
    · exact fun c hc => isBlank_of_isDigit (isDigit_getLast?_printedEntry i n c hc)

/-! Lines with white space between them -/

/-- A text that holds some lines in order. There may be white space around each of them,
so a line may end in a carriage return and a line feed, and there may be blank lines. The
last line needs no end. -/
inductive Spread : List (List Char) → List Char → Prop
  | done {gap : List Char} (hgap : ∀ c ∈ gap, isBlank c = true) : Spread [] gap
  | last {before l after : List Char} (hbefore : ∀ c ∈ before, isBlank c = true)
      (hafter : ∀ c ∈ after, isBlank c = true) : Spread [l] (before ++ l ++ after)
  | line {before l after rest : List Char} {ls : List (List Char)}
      (hbefore : ∀ c ∈ before, isBlank c = true) (hafter : ∀ c ∈ after, isBlank c = true)
      (hrest : Spread ls rest) : Spread (l :: ls) (before ++ l ++ after ++ '\n' :: rest)

theorem trim_dropReturn (l : List Char) : trim (dropReturn l) = trim l := by
  have hreturn : ∀ c ∈ ['\r'], isBlank c = true := List.all_eq_true.mp (by decide)
  rcases eq_dropReturn_or_append l with h | h
  · rw [← h]
  · rw [h, ← h, ← trim_append_gap hreturn, ← h]

/-- The lines that count are what trimming leaves between line feeds. -/
theorem listingLines_eq (output : List Char) :
    listingLines output = ((output.splitOn '\n').map trim).filter fun l => !l.isEmpty := by
  have hreturn : ∀ l ∈ output.splitOn '\n',
      (Option.guard (fun l => !l.isEmpty) ∘ trim) (dropReturn l) =
        (Option.guard (fun l => !l.isEmpty) ∘ trim) l := by
    intro l _
    rw [Function.comp_apply, trim_dropReturn, Function.comp_apply]
  rw [listingLines, ← List.filterMap_eq_filter, List.filterMap_map, filterMap_lines rfl hreturn,
    ← List.filterMap_map, List.filterMap_eq_filter]

theorem listingLines_append_feed (u v : List Char) :
    listingLines (u ++ '\n' :: v) = listingLines u ++ listingLines v := by
  simp only [listingLines_eq, List.splitOn_append_cons_self, List.map_append, List.filter_append]

theorem listingLines_cons_blank {c : Char} (hc : isBlank c = true) (cs : List Char) :
    listingLines (c :: cs) = listingLines cs := by
  by_cases hfeed : c = '\n'
  · rw [hfeed, ← List.nil_append ('\n' :: cs), listingLines_append_feed]
    rfl
  · have hsep : (c == '\n') = false := by simpa using hfeed
    rw [listingLines_eq, listingLines_eq, List.splitOn_eq_splitOnP,
      List.splitOnP_cons_eq_if_modifyHead, hsep, List.splitOn_eq_splitOnP,
      if_neg Bool.false_ne_true]
    cases cs.splitOnP (· == '\n') with
    | nil => rfl
    | cons piece pieces =>
      rw [List.modifyHead_cons, List.map_cons, List.map_cons, trim_cons_blank hc]

theorem listingLines_gap {gap : List Char} (hgap : ∀ c ∈ gap, isBlank c = true) (cs : List Char) :
    listingLines (gap ++ cs) = listingLines cs := by
  induction gap with
  | nil => rfl
  | cons c gap ih =>
    rw [List.cons_append, listingLines_cons_blank (hgap c List.mem_cons_self),
      ih fun d hd => hgap d (List.mem_cons_of_mem c hd)]

/-- White space behind a line does not count. -/
theorem listingLines_line {l : List Char} (hl : Solid l) {after : List Char}
    (hafter : ∀ c ∈ after, isBlank c = true) : listingLines (l ++ after) = [l] := by
  have hline {gap : List Char} (hgap : ∀ c ∈ gap, isBlank c = true) (hfeed : '\n' ∉ gap) :
      listingLines (l ++ gap) = [l] := by
    have hno : '\n' ∉ l ++ gap := by simp [hl.no_feed, hfeed]
    simp [listingLines_eq, List.splitOn_eq_singleton hno, trim_append_gap hgap, hl.trimmed,
      hl.nonempty]
  by_cases hfeed : '\n' ∈ after
  · obtain ⟨gap, more, rfl, hgap⟩ := List.eq_append_cons_of_mem hfeed
    have hmore : listingLines more = [] := by
      rw [← List.append_nil more, listingLines_gap]
      · rfl
      · exact fun c hc => hafter c (by simp [hc])
    have hblank : ∀ c ∈ gap, isBlank c = true := fun c hc => hafter c (by simp [hc])
    rw [← List.append_assoc, listingLines_append_feed, hline hblank hgap, hmore, List.append_nil]
  · exact hline hafter hfeed

/-- The lines are found among blank lines and other white space. -/
theorem listingLines_spread {ls : List (List Char)} {output : List Char} (h : Spread ls output)
    (hls : ∀ l ∈ ls, Solid l) : listingLines output = ls := by
  induction h with
  | @done gap hgap =>
    rw [← List.append_nil gap, listingLines_gap hgap]
    rfl
  | @last before l after hbefore hafter =>
    rw [List.append_assoc, listingLines_gap hbefore,
      listingLines_line (hls l List.mem_cons_self) hafter]
  | @line before l after rest ls hbefore hafter _ ih =>
    rw [listingLines_append_feed, List.append_assoc, listingLines_gap hbefore,
      listingLines_line (hls l List.mem_cons_self) hafter,
      ih fun m hm => hls m (List.mem_cons_of_mem l hm)]
    rfl

/-! Filling the table -/

theorem mem_of_lastSize? {read : List (Nat × UInt64)} {i : Nat} {n : UInt64}
    (h : lastSize? read i = some n) : (i, n) ∈ read := by
  obtain ⟨front, back, hsplit, -⟩ := List.lookup_eq_some_iff.mp h
  rw [← List.mem_reverse, hsplit]
  simp

theorem exists_lastSize? {read : List (Nat × UInt64)} {i : Nat} {n : UInt64} (h : (i, n) ∈ read) :
    ∃ m, lastSize? read i = some m := by
  rw [← Option.ne_none_iff_exists', lastSize?]
  intro hnone
  have hne := List.lookup_eq_none_iff.mp hnone _ (List.mem_reverse.mpr h)
  simp at hne

/-- Filling keeps what a table has, enters every entry and takes each new size from a line
for an entry of that spelling. -/
theorem fillTable_spec (read : List (Nat × UInt64)) (t : SizeTable) (entries : List (Binding × Nat))
    (hread : ∀ p ∈ entries, ∃ n, lastSize? read p.2 = some n) :
    ∃ full, fillTable read t entries = .ok full ∧
      (∀ key, t.find? key ≠ none ∨ key ∈ entries.map (fun p => p.1.spelling) →
        full.find? key ≠ none) ∧
      ∀ key n, full.find? key = some n → t.find? key = some n ∨
        ∃ p ∈ entries, p.1.spelling = key ∧ lastSize? read p.2 = some n := by
  induction entries generalizing t with
  | nil => exact ⟨t, rfl, by simp, fun key n h => Or.inl h⟩
  | cons p entries ih =>
    obtain ⟨b, i⟩ := p
    obtain ⟨n, hsize⟩ := hread (b, i) List.mem_cons_self
    have hput (key : String) : (t.insert b.ctype n).find? key =
        if b.spelling = key then some n else t.find? key := SizeTable.find?_put t b.spelling key n
    obtain ⟨full, hfull, hentered, horigin⟩ :=
      ih (t.insert b.ctype n) fun q hq => hread q (List.mem_cons_of_mem _ hq)
    refine ⟨full, by simp only [fillTable, hsize, hfull], ?_, ?_⟩
    · intro key hkey
      apply hentered
      rw [List.map_cons, List.mem_cons] at hkey
      rcases hkey with hkey | rfl | hkey
      · left
        rw [hput]
        split
        · simp
        · exact hkey
      · left
        simp [hput]
      · exact Or.inr hkey
    · intro key m hm
      rcases horigin key m hm with hbefore | ⟨q, hq, horigin⟩
      · rw [hput] at hbefore
        split at hbefore
        next hkey =>
          cases hbefore
          exact Or.inr ⟨(b, i), List.mem_cons_self, hkey, hsize⟩
        next => exact Or.inl hbefore
      · exact Or.inr ⟨q, List.mem_cons_of_mem _ hq, horigin⟩

/-! The whole listing -/

def printedLines (sizes : List UInt64) : List (List Char) :=
  sizes.zipIdx.map fun p => printedEntry p.2 p.1

/-- A listing that gives a size to each entry is read, in whatever order its lines come. The
table has a size for every entry, and every size in it is one that was printed for an entry
of that spelling. -/
theorem readListing_spread {r : Registry} {sizes : List UInt64} (hlength : sizes.length = r.size)
    (hword : r.size ≤ wordBound) {ls : List (List Char)} {output : List Char}
    (horder : ls.Perm (printedLines sizes)) (hspread : Spread ls output) :
    ∃ t, readListing r output = .ok t ∧ (∀ b ∈ r.bindings, t.find? b.spelling ≠ none) ∧
      ∀ key n, t.find? key = some n →
        ∃ (i : Nat) (b : Binding), r.bindings[i]? = some b ∧ b.spelling = key ∧
          sizes[i]? = some n := by
  have hsolid : ∀ l ∈ ls, Solid l := by
    intro l hl
    obtain ⟨p, _, rfl⟩ := List.mem_map.mp (horder.mem_iff.mp hl)
    exact solid_printedEntry p.2 p.1
  have hprinted : List.Forall₂ (fun l p => readLine r.size l = .ok p) (printedLines sizes)
      (sizes.zipIdx.map Prod.swap) := by
    rw [printedLines, List.forall₂_map_left_iff, List.forall₂_map_right_iff, List.forall₂_same]
    intro p hp
    have hindex : p.2 < sizes.length := List.snd_lt_of_mem_zipIdx hp
    exact readLine_printedEntry p.1 (by omega) (by omega)
  obtain ⟨read, hread, hpairs⟩ := List.perm_comp_forall₂ horder hprinted
  have hmem (i : Nat) (n : UInt64) : (i, n) ∈ read ↔ sizes[i]? = some n :=
    hpairs.mem_iff.trans mem_swap_zipIdx_iff
  have hlast : ∀ p ∈ r.bindings.zipIdx, ∃ n, lastSize? read p.2 = some n := by
    intro p hp
    have hindex : p.2 < sizes.length := hlength ▸ List.snd_lt_of_mem_zipIdx hp
    exact exists_lastSize? ((hmem p.2 sizes[p.2]).mpr (by simp))
  obtain ⟨t, ht, hentered, horigin⟩ :=
    fillTable_spec read SizeTable.empty r.bindings.zipIdx hlast
  refine ⟨t, ?_, ?_, ?_⟩
  · rw [readListing, listingLines_spread hspread hsolid, mapM_ok_of_forall₂ hread]
    exact ht
  · intro b hb
    apply hentered
    rw [← List.zipIdx_map_fst 0 r.bindings] at hb
    obtain ⟨p, hp, rfl⟩ := List.mem_map.mp hb
    exact Or.inr (List.mem_map_of_mem hp)
  · intro key n hn
    rcases horigin key n hn with hempty | ⟨⟨b, i⟩, hp, hkey, hsize⟩
    · simp at hempty
    · exact ⟨i, b, List.mem_zipIdx_iff_getElem?.mp hp, hkey,
        (hmem i n).mp (mem_of_lastSize? hsize)⟩

def printedSizes (sizes : List UInt64) : List Char :=
  unlines (sizes.zipIdx.map fun p => printedEntry p.2 p.1)

/-- A size that an assertion can be made of. -/
def Usable (t : SizeTable) (c : CType) : Prop :=
  ∃ n, n ≠ 0 ∧ t.sizeOf? c = some n

theorem spread_unlines (ls : List (List Char)) : Spread ls (unlines ls) := by
  induction ls with
  | nil => exact .done (by simp)
  | cons l ls ih => simpa using @Spread.line [] l [] (unlines ls) ls (by simp) (by simp) ih

/-- The table read from a listing that gives a size to each entry. -/
theorem readListing_printedSizes {r : Registry} {sizes : List UInt64}
    (hlength : sizes.length = r.size) (hword : r.size ≤ wordBound)
    (hsizes : ∀ n ∈ sizes, n ≠ 0) :
    ∃ t, readListing r (printedSizes sizes) = .ok t ∧ AssertionFile.Sized r t.source := by
  obtain ⟨t, ht, hentered, horigin⟩ := readListing_spread hlength hword
    (List.Perm.refl (printedLines sizes)) (spread_unlines _)
  have husable : ∀ b ∈ r.bindings, Usable t b.ctype := by
    intro b hb
    obtain ⟨n, hn⟩ := Option.ne_none_iff_exists'.mp (hentered b hb)
    obtain ⟨i, -, -, -, hsize⟩ := horigin b.spelling n hn
    exact ⟨n, hsizes n (List.mem_of_getElem? hsize), hn⟩
  exact ⟨t, ht, husable⟩

/-! Measuring -/

theorem ascii_of_mem_printedSizes {sizes : List UInt64} {c : Char} (hc : c ∈ printedSizes sizes) :
    c.toNat < 128 := by
  by_cases hfeed : c = '\n'
  · rw [hfeed]
    decide
  · obtain ⟨l, hl, hmem⟩ := (mem_unlines hfeed).mp hc
    obtain ⟨p, _, rfl⟩ := List.mem_map.mp hl
    rcases mem_printedEntry hmem with hdigit | rfl
    · exact ascii_of_isDigit hdigit
    · decide

/-- A compiler whose programs print a text. -/
def printing (output : List Char) : Toolchain :=
  fun _ _ _ => .ok ⟨⟨.exited 0, [], []⟩, .ok ⟨.exited 0, Utf8.asciiBytes output, []⟩⟩

/-- A program that prints a size for each entry has them all measured. -/
theorem measure_printing (s : ProbeSettings) (environment : Option String) (scratch : Path)
    {r : Registry} {sizes : List UInt64}
    (hwords : ∀ x ∈ s.compilerProgram environment :: s.compilerArguments environment
      (scratch.join ⟨"probe.c"⟩) (scratch.join ⟨"probe"⟩), '\x00' ∉ x.toList)
    (hlength : sizes.length = r.size) (hword : r.size ≤ wordBound)
    (hsizes : ∀ n ∈ sizes, n ≠ 0) :
    ∃ t, (measure s environment (printing (printedSizes sizes)) scratch r).result = .ok t ∧
      AssertionFile.Sized r t.source := by
  obtain ⟨t, ht, hsized⟩ := readListing_printedSizes hlength hword hsizes
  refine ⟨t, ?_, hsized⟩
  have hstart : startCompiler (printing (printedSizes sizes)) (s.compilerProgram environment)
      (s.compilerArguments environment (scratch.join ⟨"probe.c"⟩) (scratch.join ⟨"probe"⟩))
      (String.ofList (text s r)) = printing (printedSizes sizes) "" [] "" := by
    rw [startCompiler, if_neg]
    · rfl
    · simpa using hwords
  have hstrict : Utf8.strict (Utf8.asciiBytes (printedSizes sizes)) = .ok (printedSizes sizes) :=
    Utf8.strict_ascii fun c => ascii_of_mem_printedSizes
  simp only [measure, hstart, printing, readBuild, readProgram, hstrict, ht]
  rfl

end LayoutGuard.Probe
