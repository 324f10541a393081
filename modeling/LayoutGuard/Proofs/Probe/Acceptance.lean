import LayoutGuard.Proofs.Probe.Listing
import LayoutGuard.Proofs.Text.Word
import LayoutGuard.Proofs.Traversal

/-!
Which listings are accepted. A listing is complete when each of its lines is blank or
states a size for an entry of the registry, and when every entry has a line. Complete
listings are read and all others are refused. The table that is read has the spellings of
the registry as its keys, each with the size on the last line for its last entry.
-/

namespace LayoutGuard.Probe

open Text

/-- A run of ASCII digits and the number that it denotes. -/
structure Numeral (ds : List Char) (n : Nat) : Prop where
  nonempty : ds ≠ []
  digits : ∀ c ∈ ds, isDigit c = true
  value : Decimal.value ds = n

/-- A trimmed line that consists of an index, one space and a size. -/
def States (text : List Char) (i n : Nat) : Prop :=
  ∃ first second, text = first ++ ' ' :: second ∧ Numeral first i ∧ Numeral second n

/-- A listing that has a line for each entry and no other lines than these and blank ones. -/
structure Complete (r : Registry) (output : List Char) : Prop where
  lines_stated : ∀ line ∈ Text.lines output,
    trim line = [] ∨ ∃ i n, States (trim line) i n ∧ i < r.size ∧ n < UInt64.size
  entries_stated : ∀ i < r.size, ∃ line ∈ Text.lines output, ∃ n, States (trim line) i n

/-- The last of some lines that state a size for an index states this size. -/
def LastStated (ls : List (List Char)) (i n : Nat) : Prop :=
  ∃ before line after, ls = before ++ line :: after ∧ States (trim line) i n ∧
    ∀ later ∈ after, ∀ m, ¬States (trim later) i m

/-! One line -/

theorem digitPair?_of_digits {first second : List Char}
    (hfirst : first ≠ [] ∧ ∀ c ∈ first, isDecimalDigit c = true)
    (hsecond : second ≠ [] ∧ ∀ c ∈ second, isDecimalDigit c = true) :
    digitPair? (first ++ ' ' :: second) = some (first, second) := by
  have hspace : isDecimalDigit ' ' = false := by decide
  rw [digitPair?, takeWhile_stop hfirst.2 hspace, dropWhile_stop hfirst.2 hspace,
    char?_eq_some_iff.mpr rfl]
  simp only [Option.bind_eq_bind, Option.bind_some]
  rw [guard, if_pos]
  · rfl
  · simpa [hfirst.1, hsecond.1] using hsecond.2

theorem eq_append_of_digitPair? {line first second : List Char}
    (h : digitPair? line = some (first, second)) : line = first ++ ' ' :: second := by
  simp only [digitPair?, Option.bind_eq_bind, Option.bind_eq_some_iff, Option.pure_def,
    Option.some.injEq, Prod.mk.injEq] at h
  obtain ⟨rest, hrest, -, -, rfl, rfl⟩ := h
  rw [← char?_eq_some_iff.mp hrest, List.takeWhile_append_dropWhile]

theorem readBelow?_eq_some_iff {bound n : Nat} {ds : List Char} :
    Decimal.readBelow? bound ds = some n ↔ Numeral ds n ∧ n < bound := by
  rw [Decimal.readBelow?, Decimal.read?, Option.filter_eq_some_iff, decide_eq_true_iff]
  refine and_congr_left fun _ => ?_
  rw [Option.ite_none_right_eq_some, Bool.and_eq_true, List.all_eq_true, Option.some.injEq,
    Bool.not_eq_true', List.isEmpty_eq_false_iff, and_assoc]
  exact ⟨fun h => ⟨h.1, h.2.1, h.2.2⟩, fun h => ⟨h.nonempty, h.digits, h.value⟩⟩

theorem Numeral.decimal {ds : List Char} {n : Nat} (h : Numeral ds n) :
    ds ≠ [] ∧ ∀ c ∈ ds, isDecimalDigit c = true :=
  ⟨h.nonempty, fun c hc => isDecimalDigit_of_isDigit (h.digits c hc)⟩

/-- A line is read when it states a size for an entry. -/
theorem readLine_eq_ok_iff {count i : Nat} {n : UInt64} {text : List Char}
    (hword : count ≤ wordBound) :
    readLine count text = .ok (i, n) ↔ States text i n.toNat ∧ i < count := by
  constructor
  · intro h
    rw [readLine] at h
    split at h
    · cases h
    next first second hpair =>
      split at h
      · cases h
      next index hindex =>
        split at h
        · cases h
        next size hsize =>
          split at h
          next hlt =>
            cases h
            obtain ⟨hfirst, -⟩ := readBelow?_eq_some_iff.mp hindex
            obtain ⟨hsecond, hbound⟩ := readBelow?_eq_some_iff.mp hsize
            have hn : (UInt64.ofNat size).toNat = size := UInt64.toNat_ofNat_of_lt' hbound
            exact ⟨⟨first, second, eq_append_of_digitPair? hpair, hfirst, hn.symm ▸ hsecond⟩, hlt⟩
          next => cases h
  · rintro ⟨⟨first, second, rfl, hfirst, hsecond⟩, hlt⟩
    have hindex := readBelow?_eq_some_iff.mpr ⟨hfirst, Nat.lt_of_lt_of_le hlt hword⟩
    have hbound : n.toNat < wordBound := n.toNat_lt
    have hsize := readBelow?_eq_some_iff.mpr ⟨hsecond, hbound⟩
    rw [readLine, digitPair?_of_digits hfirst.decimal hsecond.decimal]
    simp only [hindex, hsize, if_pos hlt, UInt64.ofNat_toNat]

@[simp] theorem not_states_nil (i n : Nat) : ¬States [] i n := by
  rintro ⟨first, second, hnil, -⟩
  simp at hnil

theorem States.ne_nil {text : List Char} {i n : Nat} (h : States text i n) : text ≠ [] := by
  rintro rfl
  exact not_states_nil i n h

/-- A line states one size for one index. -/
theorem States.unique {text : List Char} {i j n m : Nat} (h : States text i n)
    (h' : States text j m) : i = j ∧ n = m := by
  obtain ⟨first, second, rfl, hfirst, hsecond⟩ := h
  obtain ⟨first', second', heq, hfirst', hsecond'⟩ := h'
  have hspace : isDigit ' ' = false := by decide
  obtain ⟨rfl, hrest⟩ := eq_of_stop hfirst.digits hspace hfirst'.digits hspace heq
  obtain rfl : second = second' := (List.cons.inj hrest).2
  exact ⟨hfirst.value.symm.trans hfirst'.value, hsecond.value.symm.trans hsecond'.value⟩

/-! The lines that count -/

/-- Lines that are read one after the other. A blank one gives nothing, and any other one
states a size for one of `count` entries. -/
inductive Reads (count : Nat) : List (List Char) → List (Nat × UInt64) → Prop
  | nil : Reads count [] []
  | blank {line : List Char} {ls : List (List Char)} {read : List (Nat × UInt64)}
      (hblank : trim line = []) (hrest : Reads count ls read) : Reads count (line :: ls) read
  | entry {line : List Char} {ls : List (List Char)} {read : List (Nat × UInt64)} {i : Nat}
      {n : UInt64} (hstates : States (trim line) i n.toNat) (hlt : i < count)
      (hrest : Reads count ls read) : Reads count (line :: ls) ((i, n) :: read)

/-- All lines are read exactly when each is blank or states a size. -/
theorem mapM_readLine_eq_ok_iff {count : Nat} (hword : count ≤ wordBound)
    {ls : List (List Char)} {read : List (Nat × UInt64)} :
    ((ls.map trim).filter fun l => !l.isEmpty).mapM (readLine count) = .ok read ↔
      Reads count ls read := by
  constructor
  · intro h
    induction ls generalizing read with
    | nil =>
      cases h
      exact Reads.nil
    | cons line ls ih =>
      by_cases hblank : trim line = []
      · rw [List.map_cons, List.filter_cons_of_neg (by simp [hblank])] at h
        exact Reads.blank hblank (ih h)
      · rw [List.map_cons, List.filter_cons_of_pos (by simp [hblank]), List.mapM_cons] at h
        obtain ⟨⟨i, n⟩, hline, h⟩ := bind_eq_ok_iff.mp h
        obtain ⟨more, hmore, h⟩ := bind_eq_ok_iff.mp h
        cases h
        obtain ⟨hstates, hlt⟩ := (readLine_eq_ok_iff hword).mp hline
        exact Reads.entry hstates hlt (ih hmore)
  · intro h
    induction h with
    | nil => rfl
    | blank hblank _ ih => rwa [List.map_cons, List.filter_cons_of_neg (by simp [hblank])]
    | entry hstates hlt _ ih =>
      rw [List.map_cons, List.filter_cons_of_pos (by simp [hstates.ne_nil]), List.mapM_cons,
        (readLine_eq_ok_iff hword).mpr ⟨hstates, hlt⟩, ih]
      rfl

theorem exists_reads_iff {count : Nat} {ls : List (List Char)} :
    (∃ read, Reads count ls read) ↔ ∀ line ∈ ls,
      trim line = [] ∨ ∃ i n, States (trim line) i n ∧ i < count ∧ n < UInt64.size := by
  constructor
  · rintro ⟨read, h⟩
    induction h with
    | nil => simp
    | blank hblank _ ih =>
      rw [List.forall_mem_cons]
      exact ⟨Or.inl hblank, ih⟩
    | @entry line ls read i n hstates hlt _ ih =>
      rw [List.forall_mem_cons]
      exact ⟨Or.inr ⟨i, n.toNat, hstates, hlt, n.toNat_lt⟩, ih⟩
  · intro h
    induction ls with
    | nil => exact ⟨[], Reads.nil⟩
    | cons line ls ih =>
      rw [List.forall_mem_cons] at h
      obtain ⟨read, hread⟩ := ih h.2
      rcases h.1 with hblank | ⟨i, n, hstates, hlt, hn⟩
      · exact ⟨read, Reads.blank hblank hread⟩
      · have hsize : (UInt64.ofNat n).toNat = n := UInt64.toNat_ofNat_of_lt' hn
        exact ⟨_, Reads.entry (hsize.symm ▸ hstates) hlt hread⟩

/-! The last line for an index -/

theorem lastSize?_cons (p : Nat × UInt64) (read : List (Nat × UInt64)) (i : Nat) :
    lastSize? (p :: read) i = (lastSize? read i).or (if p.1 = i then some p.2 else none) := by
  rw [lastSize?, List.reverse_cons, List.lookup_append, lastSize?]
  congr 1
  by_cases hp : p.1 = i
  · rw [if_pos hp, ← hp, List.lookup_cons_self]
  · have hne : (i == p.1) = false := by simpa using Ne.symm hp
    rw [if_neg hp, List.lookup_cons, hne]
    rfl

/-- A later line for the same index takes the place of an earlier one. -/
theorem lastStated_cons_iff {line : List Char} {ls : List (List Char)} {i n : Nat} :
    LastStated (line :: ls) i n ↔ LastStated ls i n ∨
      States (trim line) i n ∧ ∀ later ∈ ls, ∀ m, ¬States (trim later) i m := by
  constructor
  · rintro ⟨before, stated, after, heq, hstated, hafter⟩
    rcases List.cons_eq_append_iff.mp heq with ⟨rfl, heq⟩ | ⟨before, rfl, rfl⟩
    · cases heq
      exact Or.inr ⟨hstated, hafter⟩
    · exact Or.inl ⟨before, stated, after, rfl, hstated, hafter⟩
  · rintro (⟨before, stated, after, rfl, hstated, hafter⟩ | ⟨hstated, hafter⟩)
    · exact ⟨line :: before, stated, after, rfl, hstated, hafter⟩
    · exact ⟨[], line, ls, rfl, hstated, hafter⟩

variable {count : Nat} {ls : List (List Char)} {read : List (Nat × UInt64)}

/-- An index has a size when some line states one. -/
theorem Reads.isSome_lastSize?_iff (h : Reads count ls read) {i : Nat} :
    (lastSize? read i).isSome = true ↔ ∃ line ∈ ls, ∃ n, States (trim line) i n := by
  induction h with
  | nil => simp [lastSize?]
  | blank hblank _ ih => simp [ih, hblank]
  | @entry line ls read j n hstates _ _ ih =>
    have hline : (∃ m, States (trim line) i m) ↔ j = i := by
      constructor
      · rintro ⟨m, hm⟩
        exact (hstates.unique hm).1
      · rintro rfl
        exact ⟨n.toNat, hstates⟩
    rw [List.exists_mem_cons_iff, hline, ← ih, lastSize?_cons, Option.isSome_or, Bool.or_eq_true,
      or_comm]
    refine or_congr_left ?_
    split
    next hj => exact iff_of_true rfl hj
    next hj => exact iff_of_false (by simp) hj

/-- The size that counts for an index is the one that is stated last. -/
theorem Reads.lastSize?_eq_some_iff (h : Reads count ls read) {i : Nat} {n : UInt64} :
    lastSize? read i = some n ↔ LastStated ls i n.toNat := by
  induction h with
  | nil => simp [lastSize?, LastStated]
  | blank hblank _ ih => simp [ih, hblank, lastStated_cons_iff]
  | @entry line ls read j m hstates _ hrest ih =>
    have hline : States (trim line) i n.toNat ↔ j = i ∧ m = n := by
      constructor
      · intro hn
        obtain ⟨hj, hm⟩ := hstates.unique hn
        exact ⟨hj, UInt64.toNat_inj.mp hm⟩
      · rintro ⟨rfl, rfl⟩
        exact hstates
    have hlater : (∀ later ∈ ls, ∀ m, ¬States (trim later) i m) ↔ lastSize? read i = none := by
      rw [← Option.not_isSome_iff_eq_none, hrest.isSome_lastSize?_iff]
      simp only [not_exists, not_and]
    rw [lastStated_cons_iff, ← ih, lastSize?_cons, Option.or_eq_some_iff, hline, hlater,
      Option.ite_none_right_eq_some, Option.some.injEq]
    exact or_congr_right and_comm

/-! Filling the table -/

theorem fillTable_concat_eq_ok_iff {t full : SizeTable} {entries : List (Binding × Nat)}
    {b : Binding} {i : Nat} :
    fillTable read t (entries ++ [(b, i)]) = .ok full ↔ ∃ u n,
      fillTable read t entries = .ok u ∧ lastSize? read i = some n ∧ u.insert b.ctype n = full := by
  induction entries generalizing t with
  | nil => cases h : lastSize? read i <;> simp [fillTable, h]
  | cons p entries ih =>
    rw [List.cons_append, fillTable, fillTable]
    cases h : lastSize? read p.2 with
    | none => simp
    | some n => exact ih

/-- Every entry has to have a size. -/
theorem exists_fillTable_iff {t : SizeTable} {entries : List (Binding × Nat)} :
    (∃ full, fillTable read t entries = .ok full) ↔
      ∀ p ∈ entries, (lastSize? read p.2).isSome = true := by
  induction entries generalizing t with
  | nil => simp [fillTable]
  | cons p entries ih =>
    rw [List.forall_mem_cons, fillTable]
    cases h : lastSize? read p.2 with
    | none => simp
    | some n =>
      rw [Option.isSome_some, and_iff_right rfl]
      exact ih

/-- The last entry of a spelling sets its size. -/
theorem find?_fillTable {bindings : List Binding} {t : SizeTable}
    (h : fillTable read SizeTable.empty bindings.zipIdx = .ok t) {key : String} {n : UInt64} :
    t.find? key = some n ↔
      ∃ i, LastAt (bindings.map Binding.spelling) i key ∧ lastSize? read i = some n := by
  induction bindings using List.reverseRecOn generalizing t n with
  | nil =>
    cases h
    simp [LastAt]
  | append_singleton bindings b ih =>
    rw [List.zipIdx_append, List.zipIdx_singleton] at h
    obtain ⟨u, m, hu, hm, rfl⟩ := fillTable_concat_eq_ok_iff.mp h
    rw [Nat.zero_add] at hm
    have hfind : (u.insert b.ctype m).find? key =
        if b.spelling = key then some m else u.find? key := SizeTable.find?_put u b.spelling key m
    simp only [hfind, List.map_append, List.map_singleton, lastAt_concat_iff, List.length_map]
    by_cases hkey : b.spelling = key
    · simp [hkey, hm]
    · simpa [hkey] using ih hu

/-! The whole listing -/

variable {r : Registry} {output : List Char}

theorem readListing_eq_ok_iff (hword : r.size ≤ wordBound) {t : SizeTable} :
    readListing r output = .ok t ↔ ∃ read, Reads r.size (Text.lines output) read ∧
      fillTable read SizeTable.empty r.bindings.zipIdx = .ok t := by
  rw [readListing, bind_eq_ok_iff]
  simp only [listingLines, mapM_readLine_eq_ok_iff hword]

/-- A listing is accepted exactly when it is complete. -/
theorem exists_readListing_iff (hword : r.size ≤ wordBound) :
    (∃ t, readListing r output = .ok t) ↔ Complete r output := by
  have hentries {read : List (Nat × UInt64)} :
      (∃ t, fillTable read SizeTable.empty r.bindings.zipIdx = .ok t) ↔
        ∀ i < r.size, (lastSize? read i).isSome = true := by
    rw [exists_fillTable_iff]
    constructor
    · intro h i hi
      exact h (r.bindings[i], i) (List.mem_zipIdx_iff_getElem?.mpr (List.getElem?_eq_getElem hi))
    · intro h p hp
      exact h p.2 (List.snd_lt_of_mem_zipIdx hp)
  constructor
  · rintro ⟨t, ht⟩
    obtain ⟨read, hread, hfill⟩ := (readListing_eq_ok_iff hword).mp ht
    refine ⟨exists_reads_iff.mp ⟨read, hread⟩, ?_⟩
    intro i hi
    exact hread.isSome_lastSize?_iff.mp (hentries.mp ⟨t, hfill⟩ i hi)
  · rintro ⟨hlines, hstated⟩
    obtain ⟨read, hread⟩ := exists_reads_iff.mpr hlines
    have hsizes : ∀ i < r.size, (lastSize? read i).isSome = true :=
      fun i hi => hread.isSome_lastSize?_iff.mpr (hstated i hi)
    obtain ⟨t, hfill⟩ := hentries.mpr hsizes
    exact ⟨t, (readListing_eq_ok_iff hword).mpr ⟨read, hread, hfill⟩⟩

/-- The size of a type is the last one that is stated for its last entry. -/
theorem find?_readListing (hword : r.size ≤ wordBound) {t : SizeTable}
    (h : readListing r output = .ok t) {key : String} {n : UInt64} :
    t.find? key = some n ↔
      ∃ i, LastAt r.spellings i key ∧ LastStated (Text.lines output) i n.toNat := by
  obtain ⟨read, hread, hfill⟩ := (readListing_eq_ok_iff hword).mp h
  simp only [find?_fillTable hfill, hread.lastSize?_eq_some_iff, Registry.spellings]

/-- The table holds the types of the registry and no others. -/
theorem find?_readListing_ne_none_iff (hword : r.size ≤ wordBound) {t : SizeTable}
    (h : readListing r output = .ok t) {key : String} :
    t.find? key ≠ none ↔ key ∈ r.spellings := by
  obtain ⟨read, hread, hfill⟩ := (readListing_eq_ok_iff hword).mp h
  rw [Option.ne_none_iff_exists']
  simp only [find?_fillTable hfill]
  constructor
  · rintro ⟨n, i, hlast, -⟩
    exact List.mem_of_getElem? hlast.1
  · intro hkey
    obtain ⟨i, hlast⟩ := exists_lastAt hkey
    have hi : i < r.bindings.length := by
      simpa [Registry.spellings] using (List.getElem?_eq_some_iff.mp hlast.1).1
    have hsize := exists_fillTable_iff.mp ⟨t, hfill⟩ (r.bindings[i], i)
      (List.mem_zipIdx_iff_getElem?.mpr (List.getElem?_eq_getElem hi))
    obtain ⟨n, hn⟩ := Option.isSome_iff_exists.mp hsize
    exact ⟨n, i, hlast, hn⟩

theorem exists_listing_of_readProgram {p : Finished} {t : SizeTable}
    (h : readProgram r p = .ok t) : ∃ output, readListing r output = .ok t := by
  rw [readProgram] at h
  split at h
  · split at h
    · cases h
    next output houtput => exact ⟨output, mapError_eq_ok_iff.mp h⟩
  · cases h

/-- The problem of a listing becomes the fault of the program that printed it. -/
theorem readProgram_eq_error {p : Finished} {problem : ListingProblem}
    (hsuccess : p.status.isSuccess = true) (htext : Utf8.strict p.output = .ok output)
    (h : readListing r output = .error problem) :
    readProgram r p = .error (.badListing problem) := by
  rw [readProgram, if_pos hsuccess, htext]
  simp only [h]
  rfl

/-- A measurement takes its table from a listing. -/
theorem exists_listing_of_measure {s : ProbeSettings} {environment : Option String}
    {tools : Toolchain} {scratch : Path} {t : SizeTable}
    (h : (measure s environment tools scratch r).result = .ok t) :
    ∃ output, readListing r output = .ok t := by
  rw [measure] at h
  split at h
  · cases h
  next build hbuild =>
    have hresult : (readBuild r (s.compilerCommand environment) (Probe.text s r) build).1 = .ok t :=
      h
    rw [readBuild] at hresult
    split at hresult
    · split at hresult
      · cases hresult
      next p hp => exact exists_listing_of_readProgram hresult
    · cases hresult

/-- Exactly the complete listings are accepted. Any other listing is a problem, which is the
fault of a program that printed it. A table has the spellings of the registry as its keys,
each with the size on the last line for its last position, so no measured table leaves an
entry without a size. -/
theorem readListing_accepts_complete (r : Registry) (hword : r.size ≤ wordBound) :
    (∀ output, (∃ t, readListing r output = .ok t) ↔ Complete r output) ∧
    (∀ output, ¬Complete r output → ∃ problem, readListing r output = .error problem ∧
      ∀ p : Finished, p.status.isSuccess = true → Utf8.strict p.output = .ok output →
        readProgram r p = .error (.badListing problem)) ∧
    (∀ output t, readListing r output = .ok t →
      (∀ key, t.find? key ≠ none ↔ key ∈ r.spellings) ∧
      ∀ (key : String) (n : UInt64), t.find? key = some n ↔
        ∃ i, LastAt r.spellings i key ∧ LastStated (Text.lines output) i n.toNat) ∧
    ∀ s environment tools scratch t, (measure s environment tools scratch r).result = .ok t →
      ∀ b ∈ r.bindings, t.sizeOf? b.ctype ≠ none := by
  refine ⟨fun output => exists_readListing_iff hword, ?_, ?_, ?_⟩
  · intro output hincomplete
    cases hread : readListing r output with
    | ok t => exact absurd ((exists_readListing_iff hword).mp ⟨t, hread⟩) hincomplete
    | error problem =>
      exact ⟨problem, rfl, fun p hsuccess htext => readProgram_eq_error hsuccess htext hread⟩
  · intro output t ht
    exact ⟨fun key => find?_readListing_ne_none_iff hword ht,
      fun key n => find?_readListing hword ht⟩
  · intro s environment tools scratch t ht b hb
    obtain ⟨output, hread⟩ := exists_listing_of_measure ht
    exact (find?_readListing_ne_none_iff hword hread).mpr (List.mem_map_of_mem hb)

def listedTwice : Registry :=
  ⟨[⟨⟨.struct, "nk_rect"⟩, "Rect"⟩, ⟨⟨.struct, "nk_rect"⟩, "Rectangle"⟩]⟩

def correctedListing : List Char :=
  " 0 8\r\n1 4\n\u2003\n1 16 ".toList

/-- The second line for the last entry corrects the first one. -/
theorem readListing_correctedListing :
    listedTwice.size ≤ wordBound ∧ ∃ t, readListing listedTwice correctedListing = .ok t ∧
      t.find? "struct nk_rect" = some 16 := by
  have hword : listedTwice.size ≤ wordBound := by decide
  obtain ⟨haccepted, -, htable, -⟩ := readListing_accepts_complete listedTwice hword
  have hlines : Text.lines correctedListing =
      [" 0 8".toList, "1 4".toList, ['\u2003'], "1 16 ".toList] := by decide
  have hstates {text : List Char} {i : Nat} {n : UInt64}
      (h : readLine listedTwice.size text = .ok (i, n)) : States text i n.toNat :=
    ((readLine_eq_ok_iff hword).mp h).1
  have hfirst : States (trim " 0 8".toList) 0 8 := @hstates _ 0 8 (by decide)
  have hsecond : States (trim "1 4".toList) 1 4 := @hstates _ 1 4 (by decide)
  have hlast : States (trim "1 16 ".toList) 1 16 := @hstates _ 1 16 (by decide)
  have hcomplete : Complete listedTwice correctedListing := by
    refine ⟨?_, ?_⟩
    · rw [hlines]
      simp only [List.forall_mem_cons]
      exact ⟨Or.inr ⟨0, 8, hfirst, by decide, by decide⟩,
        Or.inr ⟨1, 4, hsecond, by decide, by decide⟩, Or.inl (by decide),
        Or.inr ⟨1, 16, hlast, by decide, by decide⟩, List.forall_mem_nil _⟩
    · intro i hi
      rw [hlines]
      match i, hi with
      | 0, _ => exact ⟨_, by simp, 8, hfirst⟩
      | 1, _ => exact ⟨_, by simp, 16, hlast⟩
  obtain ⟨t, ht⟩ := (haccepted correctedListing).mpr hcomplete
  refine ⟨hword, t, ht, ((htable correctedListing t ht).2 "struct nk_rect" 16).mpr ⟨1, ?_, ?_⟩⟩
  · refine ⟨by decide, ?_⟩
    intro j hj
    have hnone : listedTwice.spellings[j]? = none := List.getElem?_eq_none hj
    simp [hnone]
  · exact ⟨[" 0 8".toList, "1 4".toList, ['\u2003']], _, [], hlines, hlast, by simp⟩

end LayoutGuard.Probe
