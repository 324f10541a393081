import Mathlib.Data.Fin.SuccPred
import Mathlib.Data.Finset.Card
import Mathlib.Logic.Equiv.Basic
import LayoutGuard.AssertionFile
import LayoutGuard.Proofs.ByPosition
import LayoutGuard.Proofs.CType
import LayoutGuard.Proofs.SizeTable
import LayoutGuard.SizeReport

/-!
The table of a report. It answers for a type with the size in the last record of the type,
where the words of a spelling tell the type, and there is a remark for each record that
contradicts the record of its type before it. So records of different types may stand in any
order, and nothing but spellings and sizes plays a part.
-/

namespace LayoutGuard.SizeReport

variable {es fs : List Entry} {ws : List (List Char)} {n : UInt64}

/-- The words of a recorded spelling, which tell the type. -/
def Entry.words (e : Entry) : List (List Char) :=
  Text.words e.spelling.toList

def lastSize? (es : List Entry) (ws : List (List Char)) : Option UInt64 :=
  (es.filter fun e => e.words = ws).getLast?.map Entry.size

/-- The record at a position gives a type another size than the nearest record of the type
before it, and the remark names both sizes. -/
def ConflictAt (es : List Entry) (i : Nat) (remark : Remark) : Prop :=
  ∃ e n, es[i]? = some e ∧ lastSize? (es.take i) e.words = some n ∧ n ≠ e.size ∧
    remark = ⟨.warning, "layout report lists `" ++ e.spelling ++ "` as both " ++
      Text.Decimal.text n.toNat ++ " and " ++ Text.Decimal.text e.size.toNat ++ " bytes"⟩

/-- The same types and sizes in another order, in which the records of one type stand among
themselves as before. -/
def Rearranged (es fs : List Entry) : Prop :=
  ∃ place : Fin es.length ≃ Fin fs.length,
    (∀ i, fs[place i].words = es[i].words ∧ fs[place i].size = es[i].size) ∧
    ∀ i j, i < j → es[i].words = es[j].words → place i < place j

/-! The last record of a type -/

theorem lastSize?_concat (es : List Entry) (e : Entry) (ws : List (List Char)) :
    lastSize? (es ++ [e]) ws = if e.words = ws then some e.size else lastSize? es ws := by
  unfold lastSize?
  by_cases hwords : e.words = ws
  · simp [hwords]
  · simp [hwords]

theorem isSome_lastSize?_iff : (lastSize? es ws).isSome ↔ ws ∈ es.map Entry.words := by
  unfold lastSize?
  rw [Option.isSome_map, List.getLast?_isSome, Ne, List.filter_eq_nil_iff]
  simp

/-- The last record of a type gives its size. -/
theorem lastSize?_eq_some_iff : lastSize? es ws = some n ↔
    ∃ i e, es[i]? = some e ∧ LastAt (es.map Entry.words) i ws ∧ e.size = n := by
  induction es using List.reverseRecOn with
  | nil => simp [lastSize?]
  | append_singleton es d ih =>
    rw [lastSize?_concat, List.map_append, List.map_singleton]
    simp only [lastAt_concat_iff, List.length_map]
    by_cases hwords : d.words = ws
    · rw [if_pos hwords, Option.some.injEq]
      constructor
      · intro hsize
        exact ⟨es.length, d, List.getElem?_concat_length, Or.inl ⟨hwords, rfl⟩, hsize⟩
      · rintro ⟨i, e, he, ⟨-, rfl⟩ | ⟨hother, -⟩, hsize⟩
        · rw [List.getElem?_concat_length, Option.some.injEq] at he
          rw [he, hsize]
        · exact absurd hwords hother
    · rw [if_neg hwords, ih]
      constructor
      · rintro ⟨i, e, he, hlast, hsize⟩
        have hi : i < es.length := (List.getElem?_eq_some_iff.mp he).1
        exact ⟨i, e, (List.getElem?_append_left hi).trans he, Or.inr ⟨hwords, hlast⟩, hsize⟩
      · rintro ⟨i, e, he, ⟨hlast, -⟩ | ⟨-, hlast⟩, hsize⟩
        · exact absurd hlast hwords
        · have hi : i < es.length := by
            simpa using (List.getElem?_eq_some_iff.mp hlast.1).1
          exact ⟨i, e, (List.getElem?_append_left hi).symm.trans he, hlast, hsize⟩

/-- Records of a type that all give it one size. -/
theorem lastSize?_eq_some_of_forall (hmem : ws ∈ es.map Entry.words)
    (hsize : ∀ e ∈ es, e.words = ws → e.size = n) : lastSize? es ws = some n := by
  obtain ⟨m, hm⟩ := Option.isSome_iff_exists.mp (isSome_lastSize?_iff.mpr hmem)
  obtain ⟨i, e, he, ⟨hi, -⟩, rfl⟩ := lastSize?_eq_some_iff.mp hm
  have hwords : e.words = ws := by simpa [he] using hi
  rw [hm, hsize e (List.mem_of_getElem? he) hwords]

/-! Entering one more record -/

theorem enterAll_concat (t : SizeTable) (es : List Entry) (e : Entry) :
    enterAll t (es ++ [e]) =
      ((enter (enterAll t es).1 e).1, (enterAll t es).2 ++ (enter (enterAll t es).1 e).2) := by
  induction es generalizing t with
  | nil => simp [enterAll]
  | cons d es ih => simp only [List.cons_append, enterAll, ih, List.append_assoc]

theorem find?_enterAll_concat (es : List Entry) (e : Entry) (key : String) :
    (enterAll SizeTable.empty (es ++ [e])).1.find? key =
      if CType.normalizeSpelling e.spelling = key then some e.size
      else (enterAll SizeTable.empty es).1.find? key := by
  rw [enterAll_concat]
  exact SizeTable.find?_put _ _ key e.size

/-- The table finds the last size under every spelling with the same words. -/
theorem getSpelling?_enterAll (es : List Entry) (s : String) :
    (enterAll SizeTable.empty es).1.getSpelling? s = lastSize? es (Text.words s.toList) := by
  unfold SizeTable.getSpelling?
  induction es using List.reverseRecOn with
  | nil => exact SizeTable.find?_empty _
  | append_singleton es e ih =>
    rw [find?_enterAll_concat, lastSize?_concat, ih]
    by_cases hwords : e.words = Text.words s.toList
    · rw [if_pos hwords, if_pos (CType.normalizeSpelling_eq_iff.mpr hwords)]
    · rw [if_neg hwords, if_neg fun h => hwords (CType.normalizeSpelling_eq_iff.mp h)]

/-- There is nothing under a key that is no normal form. -/
theorem find?_enterAll_eq_none {key : String} (h : ∀ s, CType.normalizeSpelling s ≠ key) :
    (enterAll SizeTable.empty es).1.find? key = none := by
  induction es using List.reverseRecOn with
  | nil => exact SizeTable.find?_empty key
  | append_singleton es e ih => rw [find?_enterAll_concat, if_neg (h e.spelling), ih]

/-- Tables are equal when all last sizes are. -/
theorem enterAll_eq_of_lastSize? (h : ∀ ws, lastSize? es ws = lastSize? fs ws) :
    (enterAll SizeTable.empty es).1 = (enterAll SizeTable.empty fs).1 := by
  apply SizeTable.ext_find?
  intro key
  by_cases hkey : ∃ s, CType.normalizeSpelling s = key
  · obtain ⟨s, rfl⟩ := hkey
    change (enterAll _ es).1.getSpelling? s = (enterAll _ fs).1.getSpelling? s
    rw [getSpelling?_enterAll, getSpelling?_enterAll, h]
  · have hnone : ∀ s, CType.normalizeSpelling s ≠ key := fun s hs => hkey ⟨s, hs⟩
    rw [find?_enterAll_eq_none hnone, find?_enterAll_eq_none hnone]

/-- The table has one key for each list of words. -/
theorem size_enterAll (es : List Entry) :
    (enterAll SizeTable.empty es).1.size = (es.map Entry.words).toFinset.card := by
  induction es using List.reverseRecOn with
  | nil => exact SizeTable.size_empty
  | append_singleton es e ih =>
    have hset : ((es ++ [e]).map Entry.words).toFinset =
        insert e.words (es.map Entry.words).toFinset := by
      ext ws
      simp
    have hknown : (enterAll SizeTable.empty es).1.find? (CType.normalizeSpelling e.spelling) =
        lastSize? es e.words := getSpelling?_enterAll es e.spelling
    rw [enterAll_concat, hset]
    change (SizeTable.put _ _ _).size = _
    rw [SizeTable.size_put, hknown, ih]
    by_cases hmem : e.words ∈ es.map Entry.words
    · rw [if_pos (isSome_lastSize?_iff.mpr hmem),
        Finset.card_insert_of_mem (List.mem_toFinset.mpr hmem)]
    · have hfresh : e.words ∉ (es.map Entry.words).toFinset := fun h =>
        hmem (List.mem_toFinset.mp h)
      rw [if_neg fun h => hmem (isSome_lastSize?_iff.mp h), Finset.card_insert_of_notMem hfresh]

/-! The remarks -/

theorem conflictAt_bound {i : Nat} {remark : Remark} (h : ConflictAt es i remark) :
    i < es.length := by
  obtain ⟨e, _, he, -⟩ := h
  exact (List.getElem?_eq_some_iff.mp he).1

/-- A further record is in conflict only with the last size before it. -/
theorem conflictAt_concat_iff {e : Entry} {i : Nat} {remark : Remark} :
    ConflictAt (es ++ [e]) i remark ↔ ConflictAt es i remark ∨
      i = es.length ∧ ∃ n, lastSize? es e.words = some n ∧ n ≠ e.size ∧ remark = conflict e n := by
  by_cases hi : i < es.length
  · have htake : (es ++ [e]).take i = es.take i := List.take_append_of_le_length hi.le
    have hne : i ≠ es.length := hi.ne
    simp [ConflictAt, List.getElem?_append_left hi, htake, hne]
  · have hnone : ¬ConflictAt es i remark := fun h => hi (conflictAt_bound h)
    by_cases hlast : i = es.length
    · subst hlast
      simp only [hnone, false_or, true_and]
      simp [ConflictAt, conflict]
    · have hend : ¬ConflictAt (es ++ [e]) i remark := by
        intro h
        have hbound := conflictAt_bound h
        rw [List.length_append, List.length_singleton] at hbound
        omega
      simp [hend, hnone, hlast]

/-- Each conflict is remarked once, in the order of the records. -/
theorem byPosition_conflicts (es : List Entry) :
    ByPosition (ConflictAt es) (enterAll SizeTable.empty es).2 := by
  induction es using List.reverseRecOn with
  | nil =>
    apply ByPosition.nil
    intro i remark h
    have hbound := conflictAt_bound h
    simp at hbound
  | append_singleton es e ih =>
    have hknown : (enterAll SizeTable.empty es).1.getSpelling? e.spelling =
        lastSize? es e.words := getSpelling?_enterAll es e.spelling
    rw [enterAll_concat]
    simp only [enter, hknown]
    cases hearlier : lastSize? es e.words with
    | none =>
      rw [List.append_nil]
      apply ih.congr
      intro i remark
      simp [conflictAt_concat_iff, hearlier]
    | some n =>
      dsimp only
      by_cases hsame : n = e.size
      · rw [if_pos hsame, List.append_nil]
        apply ih.congr
        intro i remark
        simp [conflictAt_concat_iff, hearlier, hsame]
      · rw [if_neg hsame]
        refine (ih.concat (fun i remark => conflictAt_bound) (conflict e n)).congr ?_
        intro i remark
        simp [conflictAt_concat_iff, hearlier, hsame]

/-! Records in another order -/

theorem Rearranged.lastSize?_eq_some (h : Rearranged es fs) (hlast : lastSize? es ws = some n) :
    lastSize? fs ws = some n := by
  obtain ⟨place, hsame, horder⟩ := h
  obtain ⟨i, e, he, ⟨hi, hafter⟩, rfl⟩ := lastSize?_eq_some_iff.mp hlast
  obtain ⟨hlt, rfl⟩ := List.getElem?_eq_some_iff.mp he
  have hwords : es[i].words = ws := by simpa [he] using hi
  refine lastSize?_eq_some_iff.mpr ⟨place ⟨i, hlt⟩, fs[place ⟨i, hlt⟩],
    List.getElem?_eq_getElem _, ⟨?_, ?_⟩, (hsame ⟨i, hlt⟩).2⟩
  · rw [List.getElem?_map, List.getElem?_eq_getElem (place ⟨i, hlt⟩).isLt]
    exact congrArg some ((hsame ⟨i, hlt⟩).1.trans hwords)
  · intro k hk hkwords
    have hkfs : k < fs.length := by
      simpa using (List.getElem?_eq_some_iff.mp hkwords).1
    obtain ⟨j, hj⟩ := place.surjective ⟨k, hkfs⟩
    have hjwords : es[j].words = ws := by
      rw [← (hsame j).1]
      simpa [hj, hkfs] using hkwords
    -- A record of the type at `j` behind `i` is ruled out, and one before `i` stays before it.
    rcases Nat.lt_trichotomy i j with hij | hij | hij
    · apply hafter j hij
      simpa using hjwords
    · obtain rfl : ⟨i, hlt⟩ = j := Fin.ext hij
      rw [hj] at hk
      exact Nat.lt_irrefl k hk
    · have hbefore := horder j ⟨i, hlt⟩ hij (hjwords.trans hwords.symm)
      rw [hj] at hbefore
      exact Nat.lt_asymm hk hbefore

/-- Moving the records of different types past one another changes no last size. -/
theorem Rearranged.lastSize?_eq (h : Rearranged es fs) (ws : List (List Char)) :
    lastSize? es ws = lastSize? fs ws := by
  cases hes : lastSize? es ws with
  | some n => rw [h.lastSize?_eq_some hes]
  | none =>
    obtain ⟨place, hsame, -⟩ := h
    symm
    rw [Option.eq_none_iff_forall_ne_some]
    intro n hfs
    have hmem : ws ∈ fs.map Entry.words := isSome_lastSize?_iff.mp (by rw [hfs]; rfl)
    obtain ⟨f, hf, hwords⟩ := List.mem_map.mp hmem
    obtain ⟨k, hk, rfl⟩ := List.getElem_of_mem hf
    obtain ⟨i, hi⟩ := place.surjective ⟨k, hk⟩
    have hlisted : ws ∈ es.map Entry.words := by
      refine List.mem_map.mpr ⟨es[i], List.getElem_mem _, ?_⟩
      rw [← (hsame i).1]
      simp only [hi]
      exact hwords
    rw [← isSome_lastSize?_iff, hes] at hlisted
    cases hlisted

def Entry.measured (e : Entry) : String × UInt64 :=
  (e.spelling, e.size)

theorem rearranged_of_measured (h : es.map Entry.measured = fs.map Entry.measured) :
    Rearranged es fs := by
  have hlength : es.length = fs.length := by simpa using congrArg List.length h
  refine ⟨finCongr hlength, ?_, ?_⟩
  · intro i
    have hat := congrArg (·[(i : Nat)]?) h
    have hi : (i : Nat) < fs.length := hlength ▸ i.isLt
    simp only [List.getElem?_map, List.getElem?_eq_getElem i.isLt, List.getElem?_eq_getElem hi,
      Option.map_some, Option.some.injEq, Entry.measured, Prod.mk.injEq] at hat
    exact ⟨congrArg (fun s : String => Text.words s.toList) hat.1.symm, hat.2.symm⟩
  · intro i j hij _
    exact hij

/-- A report's table answers for every spelling with the size in the last record that has
the same words, and holds one size for each list of words. There is one remark for each
record that contradicts the nearest record with its words before it, in the order of the
records. Another order of the records, in which those with the same words stay in theirs,
gives the same table, and a document that is rendered over the table does not depend on the
package, the compiler and the Odin names of the report. -/
theorem table_keeps_last_sizes (report : SizeReport) :
    (∀ s, report.table.getSpelling? s = lastSize? report.entries (Text.words s.toList)) ∧
    report.table.size = (report.entries.map Entry.words).toFinset.card ∧
    ByPosition (ConflictAt report.entries) report.tableWithRemarks.2 ∧
    (∀ other : SizeReport, Rearranged report.entries other.entries →
      other.table = report.table) ∧
    ∀ other : SizeReport, report.entries.map Entry.measured = other.entries.map Entry.measured →
      ∀ package r, AssertionFile.render package r other.table.source =
        AssertionFile.render package r report.table.source := by
  have htable (other : SizeReport) (h : Rearranged report.entries other.entries) :
      other.table = report.table :=
    (enterAll_eq_of_lastSize? h.lastSize?_eq).symm
  refine ⟨getSpelling?_enterAll report.entries, size_enterAll report.entries,
    byPosition_conflicts report.entries, htable, ?_⟩
  intro other hmeasured package r
  rw [htable other (rearranged_of_measured hmeasured)]

/-! A type with two sizes, spelled in several ways -/

def gatheredReport : SizeReport :=
  ⟨"nuklear", some "cc", [⟨"struct nk_color", "Color", 4⟩, ⟨"nk_handle", "Handle", 8⟩,
    ⟨"struct\tnk_color", "Colour", 16⟩]⟩

def regatheredReport : SizeReport :=
  ⟨"nuklear", none, [⟨"nk_handle ", "Hand", 8⟩, ⟨"struct  nk_color", "Color", 4⟩,
    ⟨"\nstruct nk_color", "Color", 16⟩]⟩

def renamedReport : SizeReport :=
  ⟨"other", none, [⟨"struct nk_color", "A", 4⟩, ⟨"nk_handle", "B", 8⟩,
    ⟨"struct\tnk_color", "C", 16⟩]⟩

theorem rearranged_gatheredReport :
    Rearranged gatheredReport.entries regatheredReport.entries := by
  refine ⟨Equiv.swap (0 : Fin 3) (1 : Fin 3), ?_, ?_⟩
  · decide +kernel
  · decide +kernel

/-- One type in several spellings with two sizes, in two orders and with other names. -/
theorem table_gatheredReport :
    regatheredReport.table = gatheredReport.table ∧
      gatheredReport.table.getSpelling? " struct nk_color" = some 16 ∧
      gatheredReport.table.size = 2 ∧
      ∀ package r, AssertionFile.render package r renamedReport.table.source =
        AssertionFile.render package r gatheredReport.table.source := by
  obtain ⟨hlast, hsize, -, hrearranged, hnames⟩ := table_keeps_last_sizes gatheredReport
  refine ⟨hrearranged regatheredReport rearranged_gatheredReport, ?_, ?_, ?_⟩
  · rw [hlast]
    decide +kernel
  · rw [hsize]
    decide +kernel
  · exact hnames renamedReport rfl

end LayoutGuard.SizeReport
