import Mathlib.Data.List.Basic
import LayoutGuard.Proofs.Drift.Patch
import LayoutGuard.Proofs.Text.Decimal
import LayoutGuard.Proofs.Text.Lines

/-!
A printed drift is decoded again. Cut at its line feeds it is one record for each listed
line and one for the endings, because no line of a document holds a line feed, and each
record is read back whatever line it shows. So drifts of documents that are printed alike
are equal.
-/

namespace LayoutGuard.Drift

def lineRecord (sign : Char) (l : Nat × String) : List Char :=
  sign :: (Text.Decimal.padLeft 5 (Text.Decimal.render l.1) ++ (": ".toList ++ l.2.toList))

def endingRecord (e : EndingDrift) : List Char :=
  '!' :: ' ' :: ("     " ++ e.text).toList

def records (d : Drift) : List (List Char) :=
  d.removed.map (lineRecord '-') ++ d.added.map (lineRecord '+') ++
    d.endings.toList.map endingRecord

/-! Printing -/

theorem toList_lineText (sign : Char) (l : Nat × String) :
    (lineText sign l).toList = lineRecord sign l ++ ['\n'] := by
  simp [lineText, lineRecord]

theorem toList_join_lineText (sign : Char) (ls : List (Nat × String)) :
    (String.join (ls.map (lineText sign))).toList = Text.unlines (ls.map (lineRecord sign)) := by
  simp only [String.toList_join, List.flatMap_map, toList_lineText, Text.unlines]

theorem toList_endings (e : EndingDrift) :
    ("!      " ++ e.text ++ "\n").toList = endingRecord e ++ ['\n'] := by
  simp [endingRecord]

/-- A printed drift is its records, each on a line of its own. -/
theorem toList_text (d : Drift) : d.text.toList = Text.unlines d.records := by
  have happend (us vs : List (List Char)) :
      Text.unlines (us ++ vs) = Text.unlines us ++ Text.unlines vs := List.flatMap_append
  rw [text, String.toList_append, String.toList_append, toList_join_lineText,
    toList_join_lineText, records, happend, happend]
  cases d.endings with
  | none => rfl
  | some e =>
    rw [toList_endings]
    simp

/-- No listed line holds a line feed. -/
def Unbroken (d : Drift) : Prop :=
  ∀ l ∈ d.removed ++ d.added, '\n' ∉ l.2.toList

theorem no_feed_lineRecord {sign : Char} (hsign : sign ≠ '\n') {l : Nat × String}
    (hl : '\n' ∉ l.2.toList) : '\n' ∉ lineRecord sign l := by
  have hdigits : '\n' ∉ Text.Decimal.render l.1 := fun h =>
    absurd (Text.Decimal.isDigit_of_mem_render h) (by decide)
  simp [lineRecord, Text.Decimal.padLeft, hsign.symm, hl, hdigits]

theorem no_feed_endingRecord (e : EndingDrift) : '\n' ∉ endingRecord e := by
  cases e <;> decide

theorem no_feed_of_mem_records {d : Drift} (hd : d.Unbroken) : ∀ r ∈ d.records, '\n' ∉ r := by
  intro r hr
  simp only [records, List.mem_append, List.mem_map] at hr
  rcases hr with (⟨l, hl, rfl⟩ | ⟨l, hl, rfl⟩) | ⟨e, -, rfl⟩
  · exact no_feed_lineRecord (by decide) (hd l (List.mem_append_left _ hl))
  · exact no_feed_lineRecord (by decide) (hd l (List.mem_append_right _ hl))
  · exact no_feed_endingRecord e

/-- Cutting at line feeds gives the records back. -/
theorem splitOn_text {d : Drift} (hd : d.Unbroken) :
    d.text.toList.splitOn '\n' = d.records ++ [[]] := by
  rw [toList_text, Text.splitOn_unlines (no_feed_of_mem_records hd)]

/-! Reading records -/

/-- Padding does not touch the digits of a line number. -/
theorem dropWhile_padLeft (width n : Nat) (rest : List Char) :
    (Text.Decimal.padLeft width (Text.Decimal.render n) ++ rest).dropWhile (· = ' ') =
      Text.Decimal.render n ++ rest := by
  obtain ⟨c, cs, hcs⟩ := List.exists_cons_of_ne_nil (Text.Decimal.render_ne_nil n)
  have hc : c ≠ ' ' := by
    rintro rfl
    have hdigit : Text.isDigit ' ' = true :=
      Text.Decimal.isDigit_of_mem_render (hcs ▸ List.mem_cons_self)
    exact absurd hdigit (by decide)
  rw [Text.Decimal.padLeft, hcs, List.append_assoc, List.cons_append]
  apply Text.dropWhile_stop
  · intro d hd
    simp [List.eq_of_mem_replicate hd]
  · simpa using hc

/-- The number ends at the colon, however many digits it has, and all behind the colon and
its space is the line. -/
theorem readNumbered?_lineRecord (l : Nat × String) :
    readNumbered? (Text.Decimal.padLeft 5 (Text.Decimal.render l.1) ++
      (": ".toList ++ l.2.toList)) = some l := by
  have hdigits : ∀ c ∈ Text.Decimal.render l.1, Text.isDigit c = true := fun c hc =>
    Text.Decimal.isDigit_of_mem_render hc
  have hcolon : ": ".toList ++ l.2.toList = ':' :: ' ' :: l.2.toList := rfl
  have hliteral : Text.literal? ": " (':' :: ' ' :: l.2.toList) = some l.2.toList :=
    hcolon ▸ Text.literal?_append ": " l.2.toList
  rw [readNumbered?, dropWhile_padLeft, hcolon, Text.takeWhile_stop hdigits (by decide),
    Text.dropWhile_stop hdigits (by decide), Text.Decimal.read?_render, hliteral]
  simp

theorem readEndings?_text (e : EndingDrift) : readEndings? ("     " ++ e.text).toList = some e := by
  cases e <;> decide

theorem addRecord?_removed (l : Nat × String) (d : Drift) :
    addRecord? (lineRecord '-' l) d = some { d with removed := l :: d.removed } := by
  simp only [addRecord?, lineRecord, readNumbered?_lineRecord, Option.map_some]

theorem addRecord?_added (l : Nat × String) (d : Drift) :
    addRecord? (lineRecord '+' l) d = some { d with added := l :: d.added } := by
  simp only [addRecord?, lineRecord, readNumbered?_lineRecord, Option.map_some]

theorem addRecord?_endings (e : EndingDrift) (d : Drift) :
    addRecord? (endingRecord e) d = some { d with endings := some e } := by
  simp only [addRecord?, endingRecord, readEndings?_text, Option.map_some]

/-! Reading a whole drift -/

section Whole

variable {rest : List (List Char)} {d : Drift} (hrest : decodeRecords? rest = some d)

include hrest

theorem decodeRecords?_cons (r : List Char) : decodeRecords? (r :: rest) = addRecord? r d := by
  cases rest with
  | nil => cases hrest
  | cons next rest =>
    rw [decodeRecords?.eq_3 r _ (by simp), hrest, Option.bind_eq_bind, Option.bind_some]

theorem decodeRecords?_removed (ls : List (Nat × String)) :
    decodeRecords? (ls.map (lineRecord '-') ++ rest) =
      some { d with removed := ls ++ d.removed } := by
  induction ls with
  | nil => exact hrest
  | cons l ls ih =>
    rw [List.map_cons, List.cons_append, decodeRecords?_cons ih, addRecord?_removed]
    rfl

theorem decodeRecords?_added (ls : List (Nat × String)) :
    decodeRecords? (ls.map (lineRecord '+') ++ rest) = some { d with added := ls ++ d.added } := by
  induction ls with
  | nil => exact hrest
  | cons l ls ih =>
    rw [List.map_cons, List.cons_append, decodeRecords?_cons ih, addRecord?_added]
    rfl

end Whole

theorem decodeRecords?_endings (e? : Option EndingDrift) :
    decodeRecords? (e?.toList.map endingRecord ++ [[]]) = some ⟨[], [], e?⟩ := by
  have hempty : decodeRecords? [[]] = some ⟨[], [], none⟩ := rfl
  cases e? with
  | none => exact hempty
  | some e => exact (decodeRecords?_cons hempty (endingRecord e)).trans (addRecord?_endings e _)

/-- Reading record by record collects what each of them says. -/
theorem decodeRecords?_records (d : Drift) : decodeRecords? (d.records ++ [[]]) = some d := by
  have hadded := decodeRecords?_added (decodeRecords?_endings d.endings) d.added
  have hall := decodeRecords?_removed hadded d.removed
  rw [records, List.append_assoc, List.append_assoc, hall, List.append_nil, List.append_nil]

theorem decode?_text {d : Drift} (hd : d.Unbroken) : decode? d.text = some d := by
  rw [decode?, splitOn_text hd, decodeRecords?_records]

/-- Drifts without line feeds in their lines print alike only when they are equal. -/
theorem text_inj {d e : Drift} (hd : d.Unbroken) (he : e.Unbroken) :
    d.text = e.text ↔ d = e := by
  constructor
  · intro h
    have hread := decode?_text hd
    rw [h, decode?_text he] at hread
    exact (Option.some.inj hread).symm
  · exact congrArg text

theorem no_feed_of_mem_linesOf {document line : String} (h : line ∈ linesOf document) :
    '\n' ∉ line.toList := by
  obtain ⟨l, hl, rfl⟩ := List.mem_map.mp h
  rw [String.toList_ofList]
  exact Text.no_feed_of_mem_lines hl

/-- What a comparison lists are lines of its texts, so none of them is broken. -/
theorem unbroken_compare (committed regenerated : String) :
    (compare committed regenerated).Unbroken := by
  have hwalked := walked_compare committed regenerated
  have hlines {document : String} {listed : List (Nat × String)}
      (hlisted : listed.Sublist (Edits.numbered 1 (linesOf document))) :
      ∀ l ∈ listed, '\n' ∉ l.2.toList := fun l hl =>
    no_feed_of_mem_linesOf
      (List.mem_of_getElem? (Edits.getElem?_of_mem_numbered (hlisted.subset hl)))
  intro l hl
  rcases List.mem_append.mp hl with hl | hl
  · exact hlines hwalked.removed_sublist l hl
  · exact hlines hwalked.added_sublist l hl

/-- Cut at its line feeds, the printed drift of two documents is its records with nothing
behind the last line feed, and all listed lines with their numbers and the verdict on the
endings are read back from it. Only equal drifts are printed alike. -/
theorem decode_compare (committed regenerated : String) :
    (compare committed regenerated).text.toList.splitOn '\n' =
        (compare committed regenerated).records ++ [[]] ∧
      decode? (compare committed regenerated).text = some (compare committed regenerated) ∧
      ∀ committed' regenerated',
        (compare committed regenerated).text = (compare committed' regenerated').text ↔
          compare committed regenerated = compare committed' regenerated' := by
  have hunbroken := unbroken_compare committed regenerated
  exact ⟨splitOn_text hunbroken, decode?_text hunbroken, fun committed' regenerated' =>
    text_inj hunbroken (unbroken_compare committed' regenerated')⟩

/-- Signs, colons and carriage returns in a line are no part of its record's form. -/
example : decode? "-  100: -    1: + \r\n!      trailing newline differs\n" =
    some ⟨[(100, "-    1: + \r")], [], some .trailingNewline⟩ := by decide +kernel

end LayoutGuard.Drift
