import Mathlib.Data.List.TakeWhile
import LayoutGuard.Proofs.Json.Composite
import LayoutGuard.Proofs.Json.Keys
import LayoutGuard.SizeReport

/-!
Size reports survive their JSON text: a report is read back from what is printed for
it, white space at the end included. The text names a compiler only where the report has
one.
-/

namespace LayoutGuard.SizeReport

open Json

theorem once_none {α : Type} (name : String) (value : Reader α) (cs : List Char) :
    once name none value (':' :: cs) = value cs := by
  simp [once, colon_cons, bind, Except.bind]

/-! Entries -/

theorem field_native (p : Entry.Partial) (hp : p.spelling = none) (s : String)
    (rest : List Char) :
    Entry.field "native" p (':' :: ' ' :: (quote s ++ rest)) =
      .ok (⟨some s, p.odinName, p.size⟩, rest) := by
  simp [Entry.field, hp, once_none, text_quote, Except.map]

theorem field_foreign (p : Entry.Partial) (hp : p.odinName = none) (s : String)
    (rest : List Char) :
    Entry.field "foreign" p (':' :: ' ' :: (quote s ++ rest)) =
      .ok (⟨p.spelling, some s, p.size⟩, rest) := by
  simp [Entry.field, hp, once_none, text_quote, Except.map]

theorem field_size (p : Entry.Partial) (hp : p.size = none) (n : UInt64) {rest : List Char}
    (hrest : NumberEnd rest) :
    Entry.field "size" p (':' :: ' ' :: (Text.Decimal.render n.toNat ++ rest)) =
      .ok (⟨p.spelling, p.odinName, some n⟩, rest) := by
  simp [Entry.field, hp, once_none, word_render n hrest, Except.map]

theorem numberEnd_newline (level : Nat) (rest : List Char) : NumberEnd (newline level ++ rest) := by
  intro c hc
  cases hc
  decide

/-- The three fields of a printed entry are read back. -/
theorem fields_entry (e : Entry) (level : Nat) (rest : List Char) {fuel : Nat}
    (hfuel : 4 ≤ fuel) :
    fields Entry.field fuel false ⟨none, none, none⟩
      (newline (level + 1) ++ (quote "native" ++ ':' :: ' ' :: (quote e.spelling ++
        ',' :: (newline (level + 1) ++ (quote "foreign" ++ ':' :: ' ' :: (quote e.odinName ++
        ',' :: (newline (level + 1) ++ (quote "size" ++ ':' :: ' ' ::
          (Text.Decimal.render e.size.toNat ++ (newline level ++ '\x7d' :: rest)))))))))) =
      .ok (⟨some e.spelling, some e.odinName, some e.size⟩, rest) := by
  obtain ⟨more, rfl⟩ := Nat.exists_eq_add_of_le' hfuel
  rw [fields_first (field_native _ rfl _ _), fields_later (field_foreign _ rfl _ _),
    fields_later (field_size _ rfl _ (numberEnd_newline _ _)), fields_close]

theorem readEntry_of_fields {e : Entry} {cs rest : List Char}
    (h : fields Entry.field (cs.length + 1) false ⟨none, none, none⟩ cs =
      .ok (⟨some e.spelling, some e.odinName, some e.size⟩, rest)) :
    readEntry ('\x7b' :: cs) = .ok (e, rest) := by
  rw [readEntry, skipSpace_of_not_space (by decide)]
  change (fields _ _ _ _ _ >>= _) = _
  rw [h]
  rfl

/-- A printed entry is read back, whatever follows it. -/
theorem readEntry_render (e : Entry) (level : Nat) (rest : List Char) :
    readEntry (e.toValue.render level ++ rest) = .ok (e, rest) := by
  simp only [Entry.toValue, Value.render, renderFields, List.cons_append, List.append_assoc,
    List.nil_append]
  apply readEntry_of_fields
  apply fields_entry
  simp only [List.length_append, List.length_cons]
  omega

/-! Reports -/

theorem field_package (p : Partial) (hp : p.package = none) (s : String) (rest : List Char) :
    field "package" p (':' :: ' ' :: (quote s ++ rest)) =
      .ok (⟨some s, p.compiler, p.entries⟩, rest) := by
  simp [field, hp, once_none, text_quote, Except.map]

theorem field_compiler (p : Partial) (hp : p.compiler = none) (s : String) (rest : List Char) :
    field "compiler" p (':' :: ' ' :: (quote s ++ rest)) =
      .ok (⟨p.package, some (some s), p.entries⟩, rest) := by
  simp [field, hp, once_none, optionalText_quote, Except.map]

theorem field_entries (p : Partial) (hp : p.entries = none) (entries : List Entry) (level : Nat)
    (rest : List Char) :
    field "entries" p (':' :: ' ' :: ((Value.list (entries.map Entry.toValue)).render level ++
      rest)) = .ok (⟨p.package, p.compiler, some entries⟩, rest) := by
  simp [field, hp, once_none, listOf_render fun e => readEntry_render e _, Except.map]

/-- The fields of a report with a compiler. -/
theorem fields_measured (package compiler : String) (entries : List Entry) (rest : List Char)
    {fuel : Nat} (hfuel : 4 ≤ fuel) :
    fields field fuel false ⟨none, none, none⟩
      (newline 1 ++ (quote "package" ++ ':' :: ' ' :: (quote package ++
        ',' :: (newline 1 ++ (quote "compiler" ++ ':' :: ' ' :: (quote compiler ++
        ',' :: (newline 1 ++ (quote "entries" ++ ':' :: ' ' ::
          ((Value.list (entries.map Entry.toValue)).render 1 ++
            (newline 0 ++ '\x7d' :: rest)))))))))) =
      .ok (⟨some package, some (some compiler), some entries⟩, rest) := by
  obtain ⟨more, rfl⟩ := Nat.exists_eq_add_of_le' hfuel
  rw [fields_first (field_package _ rfl _ _), fields_later (field_compiler _ rfl _ _),
    fields_later (field_entries _ rfl _ _ _), fields_close]

/-- The fields of a report without one. -/
theorem fields_unmeasured (package : String) (entries : List Entry) (rest : List Char)
    {fuel : Nat} (hfuel : 3 ≤ fuel) :
    fields field fuel false ⟨none, none, none⟩
      (newline 1 ++ (quote "package" ++ ':' :: ' ' :: (quote package ++
        ',' :: (newline 1 ++ (quote "entries" ++ ':' :: ' ' ::
          ((Value.list (entries.map Entry.toValue)).render 1 ++
            (newline 0 ++ '\x7d' :: rest))))))) =
      .ok (⟨some package, none, some entries⟩, rest) := by
  obtain ⟨more, rfl⟩ := Nat.exists_eq_add_of_le' hfuel
  rw [fields_first (field_package _ rfl _ _), fields_later (field_entries _ rfl _ _ _),
    fields_close]

theorem read_of_fields {report : SizeReport} {compiler : Option (Option String)}
    {cs rest : List Char} (hcompiler : compiler.getD none = report.compiler)
    (h : fields field (cs.length + 1) false ⟨none, none, none⟩ cs =
      .ok (⟨some report.package, compiler, some report.entries⟩, rest)) :
    read ('\x7b' :: cs) = .ok (report, rest) := by
  rw [read, skipSpace_of_not_space (by decide)]
  change (fields _ _ _ _ _ >>= _) = _
  rw [h]
  change Except.ok (SizeReport.mk report.package (compiler.getD none) report.entries, rest) = _
  rw [hcompiler]

/-- A printed report is read back, whatever follows it. -/
theorem read_render (report : SizeReport) (rest : List Char) :
    read (report.toValue.render 0 ++ rest) = .ok (report, rest) := by
  obtain ⟨package, compiler, entries⟩ := report
  cases compiler with
  | none =>
    simp only [toValue, Option.toList_none, List.map_nil, List.append_nil, List.cons_append,
      List.nil_append, Value.render.eq_def 0 (.object _), renderFields, List.append_assoc]
    refine read_of_fields (Option.getD_none) (fields_unmeasured package entries rest ?_)
    simp only [List.length_append, List.length_cons]
    omega
  | some compiler =>
    simp only [toValue, Option.toList_some, List.map_cons, List.map_nil, List.cons_append,
      List.nil_append, Value.render.eq_def 0 (.object _), renderFields, List.append_assoc]
    refine read_of_fields (Option.getD_some) (fields_measured package compiler entries rest ?_)
    simp only [List.length_append, List.length_cons]
    omega

/-- A report is read back from its text, whatever white space follows. -/
theorem ofJson_toJson_append (report : SizeReport) (tail : String)
    (htail : ∀ c ∈ tail.toList, isSpace c = true) :
    ofJson (report.toJson ++ tail) = .ok report := by
  have htext : (report.toJson ++ tail).toList = report.toValue.render 0 ++ tail.toList := by
    rw [String.toList_append, toJson, String.toList_ofList]
  have hend : skipSpace tail.toList = [] := List.dropWhile_eq_nil_iff.mpr htail
  rw [ofJson, readAll, htext]
  simp only [read_render, bind, Except.bind, hend]
  rfl

/-! The compiler -/

theorem mem_itemKeys_entries {key : String} {entries : List Entry}
    (h : key ∈ itemKeys (entries.map Entry.toValue)) : key ∈ ["native", "foreign", "size"] := by
  induction entries with
  | nil => simp [itemKeys] at h
  | cons e entries ih =>
    rw [List.map_cons, itemKeys, List.mem_append] at h
    rcases h with hentry | hlater
    · simpa [Entry.toValue, Value.keys, fieldKeys] using hentry
    · exact ih hlater

/-- A report without a compiler has no such key, also inside its entries. -/
theorem mem_keys_toValue {report : SizeReport} (hnone : report.compiler = none) {key : String}
    (h : key ∈ report.toValue.keys) :
    key ∈ ["package", "entries", "native", "foreign", "size"] := by
  simp only [toValue, hnone, Option.toList_none, List.map_nil, List.append_nil,
    List.singleton_append, Value.keys, fieldKeys, List.nil_append, List.append_nil,
    List.mem_cons] at h
  rcases h with rfl | rfl | hentry
  · decide
  · decide
  · exact List.mem_cons_of_mem _ (List.mem_cons_of_mem _ (mem_itemKeys_entries hentry))

theorem plain_compiler : Plain "compiler" := ⟨by decide, List.all_eq_true.mp (by decide)⟩

/-- The text of a report has a compiler field exactly if the report has a compiler. -/
theorem keyText_compiler_infix_iff (report : SizeReport) :
    keyText "compiler" <:+: report.toJson.toList ↔ report.compiler ≠ none := by
  rw [toJson, String.toList_ofList]
  constructor
  · intro hin hnone
    obtain ⟨key, hkey, hend⟩ := ending_of_keyText_render plain_compiler hin
    have hnot : ∀ key ∈ ["package", "entries", "native", "foreign", "size"],
        ¬ "compiler".toList <:+ key.toList := by decide
    exact hnot key (mem_keys_toValue hnone hkey) hend
  · intro hsome
    obtain ⟨compiler, hcompiler⟩ := Option.ne_none_iff_exists'.mp hsome
    refine keyText_infix_render plain_compiler 0 (v := .text compiler) ?_
    simp [hcompiler]

/-- Every report is read back from its text, with or without a line feed at the end, and
a compiler that is missing is left out of the text. -/
theorem ofJson_toJson (report : SizeReport) :
    ofJson report.toJson = .ok report ∧ ofJson (report.toJson ++ "\n") = .ok report ∧
      (keyText "compiler" <:+: report.toJson.toList ↔ report.compiler ≠ none) := by
  refine ⟨?_, ofJson_toJson_append report "\n" (List.all_eq_true.mp (by decide)),
    keyText_compiler_infix_iff report⟩
  have h := ofJson_toJson_append report "" (List.all_eq_true.mp (by decide))
  rwa [String.append_empty] at h

end LayoutGuard.SizeReport
