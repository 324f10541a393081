import Mathlib.Data.List.Basic
import LayoutGuard.Drift
import LayoutGuard.Proofs.AssertionFile.Document
import LayoutGuard.Proofs.Drift.Alignment
import LayoutGuard.Proofs.Lint.Registry
import LayoutGuard.Proofs.SizeTable

/-!
The drift between two assertion files for one registry. Where an Odin name stands
for a single C type, an entry whose size is the same in both files has one line in
both, and an entry whose size differs has a line that the other file lacks. So the
drift lists the entries with different sizes and nothing else, whatever lines are
repeated.
-/

namespace LayoutGuard

namespace AssertionFile

variable {r : Registry} {package : PackageName} {t u : SizeTable}

def entryLine (t : SizeTable) (b : Binding) : List Char :=
  (stated t.source b).text.toList

def tableLines (package : PackageName) (r : Registry) (t : SizeTable) : List (List Char) :=
  (Odin.packageClause package.text).toList :: [] :: r.bindings.map (entryLine t)

/-- The lines of a rendered file, entry by entry. -/
theorem documentLines_stated (package : PackageName) (r : Registry) (t : SizeTable) :
    documentLines package (r.bindings.map (stated t.source)) = tableLines package r t := by
  simp only [documentLines, tableLines, List.map_map]
  rfl

/-- No entry has the clause or the empty line for its own. -/
theorem exists_entry_of_mem_tableLines {b : Binding}
    (h : entryLine t b ∈ tableLines package r u) : ∃ c ∈ r.bindings, entryLine u c = entryLine t b := by
  have hhead : (entryLine t b).head? = some '#' := by
    rw [entryLine, Odin.SizeAssertion.toList_text]
    rfl
  simp only [tableLines, List.mem_cons, List.mem_map] at h
  rcases h with h | h | h
  · rw [h, Odin.packageClause, String.toList_append] at hhead
    simp at hhead
  · rw [h] at hhead
    simp at hhead
  · exact h

theorem entryLine_mem_tableLines {b : Binding} (hb : b ∈ r.bindings) :
    entryLine t b ∈ tableLines package r t :=
  List.mem_cons_of_mem _ (List.mem_cons_of_mem _ (List.mem_map_of_mem hb))

theorem entryLine_congr {b : Binding} (h : t.sizeOf? b.ctype = u.sizeOf? b.ctype) :
    entryLine t b = entryLine u b := by
  simp only [entryLine, stated, SizeTable.source, h]

/-- A registry in which an Odin name is an identifier and stands for one C
spelling, and two tables that give a size to each of its entries. -/
structure Comparable (r : Registry) (t u : SizeTable) : Prop where
  identifier : ∀ b ∈ r.bindings, Odin.isIdentifier b.odinName = true
  single : ∀ b ∈ r.bindings, ∀ c ∈ r.bindings, b.odinName = c.odinName → b.spelling = c.spelling
  sized_left : Sized r t.source
  sized_right : Sized r u.source

namespace Comparable

theorem symm (h : Comparable r t u) : Comparable r u t :=
  ⟨h.identifier, h.single, h.sized_right, h.sized_left⟩

/-- A line of one file in the other file tells that the entry's size is the same
in both. -/
theorem sizeOf?_eq_of_mem (h : Comparable r t u) {b : Binding} (hb : b ∈ r.bindings)
    (hmem : entryLine t b ∈ tableLines package r u) : t.sizeOf? b.ctype = u.sizeOf? b.ctype := by
  obtain ⟨c, hc, hline⟩ := exists_entry_of_mem_tableLines hmem
  have hsame : stated u.source c = stated t.source b :=
    Odin.SizeAssertion.text_injective (h.identifier c hc) (h.identifier b hb)
      (String.toList_inj.mp hline)
  have hname : c.odinName = b.odinName := congrArg Odin.SizeAssertion.name hsame
  have hkey : u.sizeOf? c.ctype = u.sizeOf? b.ctype := congrArg u.find? (h.single c hc b hb hname)
  have hsize : (u.sizeOf? c.ctype).getD 0 = (t.sizeOf? b.ctype).getD 0 :=
    congrArg Odin.SizeAssertion.size hsame
  obtain ⟨m, _, hm⟩ := h.sized_left b hb
  obtain ⟨n, _, hn⟩ := h.sized_right b hb
  rw [SizeTable.source] at hm hn
  rw [hkey, hm, hn] at hsize
  rw [hm, hn]
  exact congrArg some hsize.symm

/-- A line of one document stands in the other exactly when its type has the same size there. -/
theorem mem_tableLines_iff (h : Comparable r t u) {b : Binding} (hb : b ∈ r.bindings) :
    entryLine t b ∈ tableLines package r u ↔ t.sizeOf? b.ctype = u.sizeOf? b.ctype := by
  constructor
  · exact h.sizeOf?_eq_of_mem hb
  · intro hsize
    rw [entryLine_congr hsize]
    exact entryLine_mem_tableLines hb

theorem isIdentifier_of_mem (h : Comparable r t u) (v : SizeTable) :
    ∀ a ∈ r.bindings.map (stated v.source), Odin.isIdentifier a.name = true := by
  intro a ha
  obtain ⟨b, hb, rfl⟩ := List.mem_map.mp ha
  exact h.identifier b hb

end Comparable

def inBoth (package : PackageName) (r : Registry) (t u : SizeTable) (l : List Char) : Bool :=
  decide (l ∈ tableLines package r t ∧ l ∈ tableLines package r u)

theorem inBoth_left (h : Comparable r t u) {b : Binding} (hb : b ∈ r.bindings) :
    inBoth package r t u (entryLine t b) = decide (t.sizeOf? b.ctype = u.sizeOf? b.ctype) := by
  apply decide_eq_decide.mpr
  rw [h.mem_tableLines_iff hb]
  exact and_iff_right (entryLine_mem_tableLines hb)

theorem inBoth_right (h : Comparable r t u) {b : Binding} (hb : b ∈ r.bindings) :
    inBoth package r t u (entryLine u b) = decide (t.sizeOf? b.ctype = u.sizeOf? b.ctype) := by
  apply decide_eq_decide.mpr
  rw [h.symm.mem_tableLines_iff hb, eq_comm]
  exact and_iff_left (entryLine_mem_tableLines hb)

theorem inBoth_clause : inBoth package r t u (Odin.packageClause package.text).toList = true := by
  simp [inBoth, tableLines]

theorem inBoth_blank : inBoth package r t u [] = true := by
  simp [inBoth, tableLines]

/-- The lines that stand in both files come in the same order in both. -/
theorem shared_lines_eq (h : Comparable r t u) :
    (tableLines package r t).filter (inBoth package r t u) =
      (tableLines package r u).filter (inBoth package r t u) := by
  have hentries : (r.bindings.map (entryLine t)).filter (inBoth package r t u) =
      (r.bindings.map (entryLine u)).filter (inBoth package r t u) := by
    have hsame : r.bindings.filter (inBoth package r t u ∘ entryLine t) =
        r.bindings.filter (inBoth package r t u ∘ entryLine u) :=
      List.filter_congr fun b hb => (inBoth_left h hb).trans (inBoth_right h hb).symm
    rw [List.filter_map, List.filter_map, hsame]
    apply List.map_congr_left
    intro b hb
    obtain ⟨hb, hpass⟩ := List.mem_filter.mp hb
    exact entryLine_congr (of_decide_eq_true ((inBoth_right h hb).symm.trans hpass))
  simp only [tableLines, List.filter_cons_of_pos inBoth_clause,
    List.filter_cons_of_pos inBoth_blank, hentries]

end AssertionFile

namespace Drift

open AssertionFile

variable {r : Registry} {package : PackageName} {t u : SizeTable}

/-- The entries of a registry to which two tables give different sizes, with their
positions counted from zero. -/
def changedEntries (r : Registry) (t u : SizeTable) : List (Binding × Nat) :=
  r.bindings.zipIdx.filter fun p => t.sizeOf? p.1.ctype ≠ u.sizeOf? p.1.ctype

/-- The lines of changed entries; the clause and the empty line come first. -/
def changedLines (r : Registry) (t u : SizeTable) (source : SizeSource) : List (Nat × String) :=
  (changedEntries r t u).map fun p => (p.2 + 3, (stated source p.1).text)

/-- What is listed of a document are the lines of the changed entries under their numbers. -/
theorem dropped_tableLines {v : SizeTable}
    (hkeep : ∀ b ∈ r.bindings, inBoth package r t u (entryLine v b) =
      decide (t.sizeOf? b.ctype = u.sizeOf? b.ctype)) :
    (Edits.dropped (inBoth package r t u) 1 (tableLines package r v)).map asText =
      changedLines r t u v.source := by
  have hfilter : (r.bindings.zipIdx 3).filter (fun p => !inBoth package r t u (entryLine v p.1)) =
      (r.bindings.zipIdx 3).filter fun p => t.sizeOf? p.1.ctype ≠ u.sizeOf? p.1.ctype := by
    apply List.filter_congr
    intro p hp
    rw [hkeep p.1 (List.fst_mem_of_mem_zipIdx hp)]
    simp
  rw [tableLines, Edits.dropped_cons, if_pos inBoth_clause, Edits.dropped_cons,
    if_pos inBoth_blank, Edits.dropped_map, hfilter, List.zipIdx_eq_map_add]
  simp [changedLines, changedEntries, List.filter_map, Function.comp_def, asText, entryLine,
    Nat.add_comm]

theorem compareEndings_of_documents {before after : List Char} (hbefore : '\r' ∉ before)
    (hafter : '\r' ∉ after) (hlast : before.getLast? = after.getLast?) :
    compareEndings before after = none := by
  rw [compareEndings]
  split
  · rfl
  · rw [if_neg (by simp [hbefore, hafter]), if_neg (by simp [hlast])]

/-- The drift between the documents of two tables is the changed lines on either side. -/
theorem compare_documents (h : Comparable r t u) :
    compare (format package (r.bindings.map (stated t.source)))
        (format package (r.bindings.map (stated u.source))) =
      ⟨changedLines r t u t.source, changedLines r t u u.source, none⟩ := by
  have hwalk : Edits.between (tableLines package r t) (tableLines package r u) =
      ⟨Edits.dropped (inBoth package r t u) 1 (tableLines package r t),
        Edits.dropped (inBoth package r t u) 1 (tableLines package r u)⟩ :=
    Edits.walkFrom_of_shared _ 1 1 _ _ (shared_lines_eq h) fun l hl hl' =>
      decide_eq_true ⟨hl, hl'⟩
  have hendings := compareEndings_of_documents (no_return_format (h.isIdentifier_of_mem t))
    (no_return_format (h.isIdentifier_of_mem u))
    ((getLast?_format package _).trans (getLast?_format package _).symm)
  rw [compare, lines_format (h.isIdentifier_of_mem t), lines_format (h.isIdentifier_of_mem u),
    documentLines_stated, documentLines_stated, hwalk, hendings,
    dropped_tableLines fun b hb => inBoth_left h hb,
    dropped_tableLines fun b hb => inBoth_right h hb]

/-- Nothing is listed exactly when all entries keep their sizes. -/
theorem changedLines_eq_nil_iff (source : SizeSource) :
    changedLines r t u source = [] ↔
      ∀ b ∈ r.bindings, t.sizeOf? b.ctype = u.sizeOf? b.ctype := by
  rw [changedLines, List.map_eq_nil_iff, changedEntries, List.filter_eq_nil_iff]
  constructor
  · intro h b hb
    rw [← List.zipIdx_map_fst 0 r.bindings] at hb
    obtain ⟨p, hp, rfl⟩ := List.mem_map.mp hb
    simpa using h p hp
  · intro h p hp
    simpa using h p.1 (List.fst_mem_of_mem_zipIdx hp)

/-- Between the files that two tables of sizes give for one registry, the drift
lists the lines of the entries whose size differs, in registry order on both sides,
and it is clean when there is no such entry. -/
theorem compare_layouts (r : Registry) (package : PackageName) (t u : SizeTable)
    {before after : String}
    (hnames : ∀ s n, Finding.invalidForeignName s n ∉ Lint.registry r)
    (hshared : ∀ n ss, Finding.duplicateForeign n ss ∉ Lint.registry r)
    (hbefore : render package r t.source = .ok before)
    (hafter : render package r u.source = .ok after) :
    (compare before after).removed = changedLines r t u t.source ∧
      (compare before after).added = changedLines r t u u.source ∧
      (compare before after).endings = none ∧
      ((compare before after).isClean = true ↔
        ∀ b ∈ r.bindings, t.sizeOf? b.ctype = u.sizeOf? b.ctype) := by
  obtain ⟨ht, rfl⟩ := (render_eq_ok_iff package r t.source before).mp hbefore
  obtain ⟨hu, rfl⟩ := (render_eq_ok_iff package r u.source after).mp hafter
  have h : Comparable r t u := {
    identifier := Lint.isIdentifier_of_no_invalid hnames
    single := fun b hb c hc => Lint.spelling_eq_of_no_shared hshared hb hc
    sized_left := ht
    sized_right := hu }
  rw [compare_documents h]
  refine ⟨rfl, rfl, rfl, ?_⟩
  simp [isClean, changedLines_eq_nil_iff]

/-! A registry that lists the union of style items twice -/

def styleItems : Registry :=
  ⟨[⟨⟨.union, "nk_style_item_data"⟩, "Style_Item_Data"⟩, ⟨⟨.struct, "nk_rect"⟩, "Rect"⟩,
    ⟨⟨.union, "nk_style_item_data"⟩, "Style_Item_Data"⟩]⟩

def styleSizes (n : UInt64) : SizeTable :=
  (SizeTable.empty.insert ⟨.union, "nk_style_item_data"⟩ n).insert ⟨.struct, "nk_rect"⟩ 16

theorem sizeOf?_styleSizes (n : UInt64) :
    (styleSizes n).sizeOf? ⟨.union, "nk_style_item_data"⟩ = some n ∧
      (styleSizes n).sizeOf? ⟨.struct, "nk_rect"⟩ = some 16 := by
  simp [styleSizes, SizeTable.sizeOf?_insert, CType.spelling]

theorem sized_styleItems {n : UInt64} (hn : n ≠ 0) : Sized styleItems (styleSizes n).source := by
  simp [Sized, styleItems, SizeTable.source, sizeOf?_styleSizes, hn]

/-- A type with two entries is listed at both of their lines. -/
theorem compare_style_items :
    ∃ before after, render ⟨"nuklear", by decide⟩ styleItems (styleSizes 40).source = .ok before ∧
      render ⟨"nuklear", by decide⟩ styleItems (styleSizes 48).source = .ok after ∧
      (compare before after).removed =
        [(3, "#assert(size_of(Style_Item_Data) == 40)"),
          (5, "#assert(size_of(Style_Item_Data) == 40)")] := by
  have hlint : Lint.registry styleItems = [.duplicateNative "union nk_style_item_data"
      ["Style_Item_Data", "Style_Item_Data"] [0, 2]] := by decide
  have hline : (Odin.SizeAssertion.mk "Style_Item_Data" 40).text =
      "#assert(size_of(Style_Item_Data) == 40)" := by
    unfold Odin.SizeAssertion.text Text.Decimal.text
    simp [Text.Decimal.render]
    decide
  have hbefore := (render_eq_ok_iff ⟨"nuklear", by decide⟩ styleItems (styleSizes 40).source _).mpr
    ⟨sized_styleItems (by decide), rfl⟩
  have hafter := (render_eq_ok_iff ⟨"nuklear", by decide⟩ styleItems (styleSizes 48).source _).mpr
    ⟨sized_styleItems (by decide), rfl⟩
  refine ⟨_, _, hbefore, hafter, ?_⟩
  rw [(compare_layouts styleItems _ (styleSizes 40) (styleSizes 48) (by simp [hlint])
    (by simp [hlint]) hbefore hafter).1]
  simp [changedLines, changedEntries, styleItems, sizeOf?_styleSizes, stated, SizeTable.source,
    hline]

end Drift

end LayoutGuard
