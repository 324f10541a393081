import Mathlib.Data.List.Basic
import LayoutGuard.Proofs.Probe.Listing
import LayoutGuard.Proofs.Text.Word

/-!
What a probe program prints. Only the lines of the registry entries print anything, each
its index and the size of its type. Read in any order and with any white space, what the
program prints gives the table of exactly these sizes.
-/

namespace LayoutGuard.Probe

open Text

/-- Strings that leave every line of a program in one piece. -/
structure Lined (s : ProbeSettings) (r : Registry) : Prop where
  defines : ∀ d ∈ s.defines, '\n' ∉ (Define.ofText d).name ∧ '\n' ∉ (Define.ofText d).value
  header : '\n' ∉ s.header.toList
  names : ∀ b ∈ r.bindings, '\n' ∉ b.ctype.name.toList

/-- Strings that keep the lines of a program apart and the operands of `sizeof` whole, for a
registry whose positions are machine words. -/
structure Printable (s : ProbeSettings) (r : Registry) : Prop where
  defines : ∀ d ∈ s.defines, '\n' ∉ d.toList
  header : '\n' ∉ s.header.toList
  names : ∀ b ∈ r.bindings, ∀ c ∈ b.ctype.name.toList, c ≠ '\n' ∧ c ≠ '(' ∧ c ≠ ')'
  positions : r.size ≤ wordBound

variable {s : ProbeSettings} {r : Registry} {sizes : List Char → UInt64}

/-! The lines of a program -/

theorem mem_spelling {t : CType} {c : Char} (hc : c ∈ t.spelling.toList) :
    c ∈ "struct ".toList ∨ c ∈ "union ".toList ∨ c ∈ t.name.toList := by
  obtain ⟨kind, name⟩ := t
  cases kind with
  | struct =>
    simp only [CType.spelling, String.toList_append, List.mem_append] at hc
    exact hc.imp_right Or.inr
  | union =>
    simp only [CType.spelling, String.toList_append, List.mem_append] at hc
    exact Or.inr hc
  | typedef => exact Or.inr (Or.inr hc)

theorem Printable.spelling (h : Printable s r) {b : Binding} (hb : b ∈ r.bindings) :
    ∀ c ∈ b.spelling.toList, c ≠ '\n' ∧ c ≠ ')' := by
  have hstruct : ∀ c ∈ "struct ".toList, c ≠ '\n' ∧ c ≠ ')' := by simp
  have hunion : ∀ c ∈ "union ".toList, c ≠ '\n' ∧ c ≠ ')' := by simp
  intro c hc
  rcases mem_spelling hc with hc | hc | hc
  · exact hstruct c hc
  · exact hunion c hc
  · obtain ⟨hfeed, -, hclose⟩ := h.names b hb c hc
    exact ⟨hfeed, hclose⟩

theorem name_sublist (raw : String) : (Define.ofText raw).name.Sublist raw.toList :=
  (trim_sublist _).trans (List.takeWhile_sublist _)

theorem value_sublist (raw : String) : (Define.ofText raw).value.Sublist raw.toList :=
  (trim_sublist _).trans ((List.drop_sublist 1 _).trans (List.dropWhile_sublist _))

/-- What can be printed has no line feed in its strings. -/
theorem Printable.lined (h : Printable s r) : Lined s r where
  defines d hd := ⟨fun hmem => h.defines d hd ((name_sublist d).subset hmem),
    fun hmem => h.defines d hd ((value_sublist d).subset hmem)⟩
  header := h.header
  names b hb hmem := (h.names b hb _ hmem).1 rfl

theorem no_feed_spelling {t : CType} (h : '\n' ∉ t.name.toList) : '\n' ∉ t.spelling.toList := by
  have hstruct : '\n' ∉ "struct ".toList := by decide
  have hunion : '\n' ∉ "union ".toList := by decide
  intro hmem
  rcases mem_spelling hmem with hmem | hmem | hmem
  · exact hstruct hmem
  · exact hunion hmem
  · exact h hmem

theorem no_feed_define {d : Define} (hname : '\n' ∉ d.name) (hvalue : '\n' ∉ d.value) :
    '\n' ∉ d.line := by
  have hhead : '\n' ∉ "#define ".toList := by decide
  unfold Define.line
  simp only [List.mem_append, not_or]
  refine ⟨⟨hhead, hname⟩, ?_⟩
  split
  · exact List.not_mem_nil
  · simpa using hvalue

theorem no_feed_entryLine (i : Nat) {spelling : String} (h : '\n' ∉ spelling.toList) :
    '\n' ∉ entryLine i spelling := by
  have hlead : '\n' ∉ "    ".toList ++ entryLead := by decide
  have hindex : '\n' ∉ Decimal.render i := fun hmem => by
    have hdigit := Decimal.isDigit_of_mem_render hmem
    revert hdigit
    decide
  have hcast : '\n' ∉ "u, (unsigned long long)sizeof(".toList := by decide
  have hclose : '\n' ∉ "));".toList := by decide
  unfold entryLine
  simp only [List.mem_append, not_or] at hlead ⊢
  exact ⟨⟨⟨⟨hlead, hindex⟩, hcast⟩, h⟩, hclose⟩

theorem no_feed_lines (h : Lined s r) : ∀ l ∈ lines s r, '\n' ∉ l := by
  intro l hl
  simp only [lines, List.mem_append, List.mem_map, List.mem_cons, List.not_mem_nil, or_false] at hl
  rcases hl with (((rfl | ⟨d, hd, rfl⟩) | hl) | ⟨p, hp, rfl⟩) | rfl | rfl
  · decide
  · exact no_feed_define (h.defines d hd).1 (h.defines d hd).2
  · rcases hl with rfl | rfl | rfl | rfl | rfl | rfl
    · decide
    · decide
    · simp [h.header]
    · decide
    · decide
    · decide
  · obtain ⟨b, hb, hspelling⟩ := List.mem_map.mp (List.fst_mem_of_mem_zipIdx hp)
    exact no_feed_entryLine p.2 (hspelling ▸ no_feed_spelling (h.names b hb))
  · decide
  · decide

/-- The lines of the program are those that were put together, but for carriage returns at their
ends. -/
theorem lines_text (h : Lined s r) : Text.lines (text s r) = (lines s r).map dropReturn :=
  lines_unlines_of_no_feed (no_feed_lines h)

def opening (s : ProbeSettings) : List (List Char) :=
  ["/* nk-abi layout probe: prints \"<entry> <sizeof>\" for every registry entry */".toList] ++
    s.defines.map (fun d => (Define.ofText d).line) ++
    ["#include <stdint.h>".toList, "#include <stdio.h>".toList,
     "#include \"".toList ++ s.header.toList ++ ['"'], [], "int main(void)".toList, ['\x7b']]

def closing : List (List Char) :=
  ["    return 0;".toList, ['\x7d']]

theorem lines_eq (s : ProbeSettings) (r : Registry) :
    lines s r = opening s ++ r.spellings.zipIdx.map (fun p => entryLine p.2 p.1) ++ closing := rfl

theorem length_opening (s : ProbeSettings) : (opening s).length = s.defines.length + 7 := by
  simp only [opening, List.length_append, List.length_map, List.length_cons, List.length_nil]
  omega

/-! Lines with an entry and other lines -/

/-- A line that does not begin like the line of an entry. -/
def Quiet (line : List Char) : Prop :=
  (skipBlanks line).head? ≠ some 'p'

theorem Quiet.no_lead {line : List Char} (h : Quiet line) :
    entryLead.isPrefixOf? (skipBlanks line) = none := by
  rw [Option.eq_none_iff_forall_ne_some]
  intro rest hrest
  rw [List.isPrefixOf?_eq_some_iff_append_eq] at hrest
  rw [Quiet, ← hrest] at h
  exact h rfl

theorem quiet_directive (u : List Char) : Quiet (dropReturn ('#' :: u)) := by
  rw [Quiet, dropReturn_cons (by decide), skipBlanks_of_not_blank (by decide)]
  simp

theorem quiet_define (d : Define) : Quiet (dropReturn d.line) := by
  obtain ⟨u, hu⟩ : ∃ u, d.line = '#' :: u := by
    unfold Define.line
    exact ⟨_, rfl⟩
  rw [hu]
  exact quiet_directive u

/-- None of the lines before the entries looks like one of them. -/
theorem quiet_opening (s : ProbeSettings) : ∀ l ∈ opening s, Quiet (dropReturn l) := by
  have hcomment : Quiet (dropReturn
      "/* nk-abi layout probe: prints \"<entry> <sizeof>\" for every registry entry */".toList) := by
    unfold Quiet
    decide
  have hplain : ∀ l ∈ [[], "int main(void)".toList, ['\x7b']], Quiet (dropReturn l) := by
    unfold Quiet
    decide
  simp only [opening, List.forall_mem_append, List.forall_mem_map, List.forall_mem_singleton,
    List.forall_mem_cons] at hplain ⊢
  exact ⟨⟨hcomment, fun d _ => quiet_define _⟩, quiet_directive _, quiet_directive _,
    quiet_directive _, hplain⟩

theorem quiet_closing : ∀ l ∈ closing, Quiet (dropReturn l) := by
  unfold Quiet
  decide

theorem dropReturn_entryLine (i : Nat) (spelling : String) :
    dropReturn (entryLine i spelling) = entryLine i spelling := by
  have hlast : "));".toList.getLast? = some ';' := rfl
  apply dropReturn_eq_self
  unfold entryLine
  rw [List.getLast?_append, hlast]
  simp

/-- The line of an entry begins in a fixed way up to its index. -/
theorem entryLine_eq (i : Nat) (spelling : String) :
    entryLine i spelling = ("    ".toList ++ entryLead ++ Decimal.render i) ++
      ("u, (unsigned long long)sizeof(".toList ++ (spelling.toList ++ "));".toList)) := by
  unfold entryLine
  rw [List.append_assoc, List.append_assoc]

/-- What the line of an entry has behind its lead. -/
theorem lead_entryLine (i : Nat) (spelling : String) :
    entryLead.isPrefixOf? (skipBlanks (entryLine i spelling)) =
      some (Decimal.render i ++ ("u, (unsigned long long)sizeof(".toList ++
        (spelling.toList ++ "));".toList))) := by
  have hindent : ∀ c ∈ "    ".toList, isBlank c = true := List.all_eq_true.mp (by decide)
  have hlead (rest : List Char) : skipBlanks (entryLead ++ rest) = entryLead ++ rest := rfl
  rw [entryLine_eq, List.append_assoc, List.append_assoc, skipBlanks_gap hindent, hlead]
  exact List.isPrefixOf?_eq_some_iff_append_eq.mpr rfl

/-! What the lines print -/

theorem printedLine?_of_quiet {line : List Char} (h : Quiet line) :
    printedLine? sizes line = none := by
  rw [printedLine?, h.no_lead]
  rfl

/-- Running the line of an entry prints its index and the size of its type. -/
theorem printedLine?_entryLine (i : Nat) {spelling : String} (h : ')' ∉ spelling.toList) :
    printedLine? sizes (entryLine i spelling) = some (printedEntry i (sizes spelling.toList)) := by
  have hdigits : ∀ c ∈ Decimal.render i, isDigit c = true := fun _ => Decimal.isDigit_of_mem_render
  have hoperand : ∀ c ∈ spelling.toList, (c != ')') = true :=
    fun c hc => bne_iff_ne.mpr fun e => h (e ▸ hc)
  have hcast : "u, (unsigned long long)sizeof(".toList =
    'u' :: ", (unsigned long long)sizeof(".toList := rfl
  have hclose : "));".toList = ')' :: ");".toList := rfl
  rw [printedLine?, lead_entryLine]
  simp only [Option.bind_eq_bind, Option.bind_some]
  rw [hcast, List.cons_append, takeWhile_stop hdigits (by decide),
    dropWhile_stop hdigits (by decide), ← List.cons_append, ← hcast, literal?_append]
  simp only [Option.bind_some]
  rw [hclose, takeWhile_stop hoperand (by decide), dropWhile_stop hoperand (by decide)]
  rfl

/-- A program prints the size of each entry and nothing else. -/
theorem printed_text (h : Printable s r) :
    printed sizes (text s r) = printedLines (r.spellings.map fun c => sizes c.toList) := by
  have hopening : ∀ l ∈ opening s, printedLine? sizes (dropReturn l) = none :=
    fun l hl => printedLine?_of_quiet (quiet_opening s l hl)
  have hclosing : ∀ l ∈ closing, printedLine? sizes (dropReturn l) = none :=
    fun l hl => printedLine?_of_quiet (quiet_closing l hl)
  have hentries : ∀ p ∈ r.spellings.zipIdx, printedLine? sizes (dropReturn (entryLine p.2 p.1)) =
      some (printedEntry p.2 (sizes p.1.toList)) := by
    intro p hp
    obtain ⟨b, hb, hspelling⟩ := List.mem_map.mp (List.fst_mem_of_mem_zipIdx hp)
    rw [dropReturn_entryLine,
      printedLine?_entryLine p.2 fun hmem => (h.spelling hb _ (hspelling ▸ hmem)).2 rfl]
  rw [printed, lines_text h.lined, List.filterMap_map, lines_eq]
  simp only [List.filterMap_append, List.filterMap_map, Function.comp_def]
  rw [List.filterMap_eq_nil_iff.mpr hopening, List.filterMap_eq_nil_iff.mpr hclosing,
    List.filterMap_congr hentries]
  simp [printedLines, List.zipIdx_map]

/-- Feeding a probe's own output to the reader: whatever the order of its lines and the white
space around them, the table that is read has the size of each registered type and no other
key. -/
theorem readListing_printed (h : Printable s r) (size : String → UInt64) {ls : List (List Char)}
    {output : List Char}
    (horder : ls.Perm (printed (fun cs => size (String.ofList cs)) (text s r)))
    (hspread : Spread ls output) :
    ∃ t, readListing r output = .ok t ∧
      (∀ b ∈ r.bindings, t.sizeOf? b.ctype = some (size b.spelling)) ∧
      ∀ key, t.find? key ≠ none → key ∈ r.spellings := by
  rw [printed_text h] at horder
  have hlength : (r.spellings.map fun c => size (String.ofList c.toList)).length = r.size := by
    simp [Registry.spellings, Registry.size]
  obtain ⟨t, ht, hentered, horigin⟩ := readListing_spread hlength h.positions horder hspread
  have hfound : ∀ key n, t.find? key = some n → key ∈ r.spellings ∧ n = size key := by
    intro key n hn
    obtain ⟨i, b, hb, rfl, hsize⟩ := horigin key n hn
    refine ⟨List.mem_map_of_mem (List.mem_of_getElem? hb), ?_⟩
    simpa [Registry.spellings, hb] using hsize.symm
  refine ⟨t, ht, ?_, ?_⟩
  · intro b hb
    obtain ⟨n, hn⟩ := Option.ne_none_iff_exists'.mp (hentered b hb)
    obtain ⟨-, rfl⟩ := hfound _ n hn
    exact hn
  · intro key hkey
    obtain ⟨n, hn⟩ := Option.ne_none_iff_exists'.mp hkey
    exact (hfound key n hn).1

/-! A type with two entries, and a listing that runs backwards with white space in it -/

def pageTypes : Registry :=
  ⟨[⟨⟨.union, "nk_page_data"⟩, "Page_Data"⟩, ⟨⟨.struct, "nk_page"⟩, "Page"⟩,
    ⟨⟨.union, "nk_page_data"⟩, "Page_Data"⟩]⟩

def pageSize (spelling : String) : UInt64 :=
  if spelling = "struct nk_page" then 18446744073709551615 else 0

def pageListing : List Char :=
  "\r\n\t2 0\r\n\n1 18446744073709551615 \u2003\r\n0 0\n ".toList

/-- Sizes from zero to the largest one are read back from a listing that runs backwards. -/
theorem readListing_pageListing :
    Printable ProbeSettings.default pageTypes ∧
      ∃ t, readListing pageTypes pageListing = .ok t ∧
        t.sizeOf? ⟨.union, "nk_page_data"⟩ = some 0 ∧
        t.sizeOf? ⟨.struct, "nk_page"⟩ = some 18446744073709551615 ∧ t.find? "nk_page" = none := by
  have hprintable : Printable ProbeSettings.default pageTypes := {
    defines := by decide
    header := by decide
    names := by simp [pageTypes]
    positions := by decide }
  have horder : ["2 0".toList, "1 18446744073709551615".toList, "0 0".toList].Perm
      (printed (fun cs => pageSize (String.ofList cs)) (text ProbeSettings.default pageTypes)) := by
    decide +kernel
  have hspread : Spread ["2 0".toList, "1 18446744073709551615".toList, "0 0".toList]
      pageListing := by
    have hgap {gap : List Char} (h : gap.all isBlank = true) : ∀ c ∈ gap, isBlank c = true :=
      List.all_eq_true.mp h
    have hlast : Spread [] [' '] := .done (hgap (by decide))
    have hthird := @Spread.line [] "0 0".toList [] _ _ (hgap (by decide)) (hgap (by decide)) hlast
    have hsecond := @Spread.line ['\n'] "1 18446744073709551615".toList [' ', '\u2003', '\r'] _ _
      (hgap (by decide)) (hgap (by decide)) hthird
    exact @Spread.line ['\r', '\n', '\t'] "2 0".toList ['\r'] _ _
      (hgap (by decide)) (hgap (by decide)) hsecond
  obtain ⟨t, ht, hsizes, hkeys⟩ := readListing_printed hprintable pageSize horder hspread
  refine ⟨hprintable, t, ht, ?_, ?_, ?_⟩
  · exact hsizes ⟨⟨.union, "nk_page_data"⟩, "Page_Data"⟩ (by decide)
  · exact hsizes ⟨⟨.struct, "nk_page"⟩, "Page"⟩ (by decide)
  · by_contra hfound
    have hlisted := hkeys "nk_page" hfound
    revert hlisted
    decide

end LayoutGuard.Probe
