import Mathlib.Data.List.Basic
import Mathlib.Data.List.Forall2
import LayoutGuard.Proofs.AssertionFile.Document
import LayoutGuard.Proofs.Lint.Registry

/-!
A rendered assertion file is decoded again. Cut at its line feeds it is the clause, an
empty line and one assertion for each entry, and reading these lines gives the package
and the sizes of all entries back. So two files are equal only if they assert the same.
-/

namespace LayoutGuard.AssertionFile

/-- What an assertion has to say about an entry. -/
def States (source : SizeSource) (b : Binding) (a : Odin.SizeAssertion) : Prop :=
  a.name = b.odinName ∧ source b.ctype = some a.size

/-- The file that a package name, a registry without invalid Odin names and a source of
sizes give. -/
structure Rendered (name : String) (r : Registry) (source : SizeSource) (document : String) :
    Prop where
  valid_names : ∀ s n, Finding.invalidForeignName s n ∉ Lint.registry r
  rendered : ∃ package, PackageName.ofString name = .ok package ∧
    render package r source = .ok document

variable {package : PackageName} {as : List Odin.SizeAssertion} {r : Registry}
  {source : SizeSource}

/-! What a file asserts -/

theorem stated_eq_of_states {b : Binding} {a : Odin.SizeAssertion} (h : States source b a) :
    stated source b = a := by
  obtain ⟨hname, hsize⟩ := h
  rw [stated, hsize, ← hname]
  rfl

/-- With sizes for all entries, the assertion that is made for an entry says what it has to say.
-/
theorem states_stated (h : Sized r source) {b : Binding} (hb : b ∈ r.bindings) :
    States source b (stated source b) := by
  obtain ⟨n, -, hn⟩ := h b hb
  simp [States, stated, hn]

/-- There is one list of assertions about the entries of a registry. -/
theorem forall₂_states_iff (h : Sized r source) :
    List.Forall₂ (States source) r.bindings as ↔ as = r.bindings.map (stated source) := by
  constructor
  · intro has
    have hstated : List.Forall₂ (fun b a => stated source b = a) r.bindings as :=
      has.imp fun _ _ => stated_eq_of_states
    rw [← List.forall₂_map_left_iff (R := Eq), List.forall₂_eq_eq_eq] at hstated
    exact hstated.symm
  · rintro rfl
    rw [List.forall₂_map_right_iff, List.forall₂_same]
    exact fun b hb => states_stated h hb

/-! Reading a file back -/

theorem decodeBody?_cons {line : List Char} {rest : List (List Char)} (hrest : rest ≠ []) :
    decodeBody? (line :: rest) = (Odin.SizeAssertion.ofLine? line).bind fun a =>
      (decodeBody? rest).map (a :: ·) := by
  cases rest with
  | nil => exact absurd rfl hrest
  | cons next rest => simp [decodeBody?, Option.map_eq_bind]

/-- The reader of the body undoes the writing of assertions one line each. -/
theorem decodeBody?_lines (has : ∀ a ∈ as, Odin.isIdentifier a.name = true) :
    decodeBody? (as.map (fun a => a.text.toList) ++ [[]]) = some as := by
  induction as with
  | nil => rfl
  | cons a as ih =>
    have hrest : as.map (fun a => a.text.toList) ++ [[]] ≠ [] := by simp
    rw [List.map_cons, List.cons_append, decodeBody?_cons hrest,
      Odin.SizeAssertion.ofLine?_text (has a List.mem_cons_self),
      ih fun b hb => has b (List.mem_cons_of_mem a hb)]
    rfl

theorem splitOn_format (has : ∀ a ∈ as, Odin.isIdentifier a.name = true) :
    (format package as).toList.splitOn '\n' = documentLines package as ++ [[]] := by
  apply splitOn_format_of_no_feed
  intro a ha hfeed
  exact (inline_of_isNameRest (Odin.isNameRest_of_mem (has a ha) hfeed)).1 rfl

/-- Reading a written file gives back its package and all of its assertions. -/
theorem decode?_format (has : ∀ a ∈ as, Odin.isIdentifier a.name = true) :
    decode? (format package as) = some (package.text, as) := by
  have hclause : (Odin.packageClause package.text).toList =
      "package ".toList ++ package.text.toList := String.toList_append
  rw [decode?, splitOn_format has]
  simp only [documentLines, List.cons_append, hclause, Text.literal?_append, decodeBody?_lines has]
  simp

/-- Files are the same text only for the same package and the same assertions. -/
theorem format_eq_iff {package' : PackageName} {as' : List Odin.SizeAssertion}
    (has : ∀ a ∈ as, Odin.isIdentifier a.name = true)
    (has' : ∀ a ∈ as', Odin.isIdentifier a.name = true) :
    format package as = format package' as' ↔ package.text = package'.text ∧ as = as' := by
  constructor
  · intro h
    have hread : decode? (format package as) = some (package.text, as) := decode?_format has
    rw [h, decode?_format has', Option.some.injEq, Prod.mk.injEq] at hread
    exact ⟨hread.1.symm, hread.2.symm⟩
  · rintro ⟨hname, rfl⟩
    rw [format, format, hname]

/-- The assertions that a rendered file makes. -/
theorem Rendered.exists_assertions {name document : String} (h : Rendered name r source document) :
    ∃ package as, package.text = name ∧ document = format package as ∧
      (∀ a ∈ as, Odin.isIdentifier a.name = true) ∧
      ∀ as', List.Forall₂ (States source) r.bindings as' ↔ as' = as := by
  obtain ⟨package, hname, hrender⟩ := h.rendered
  obtain ⟨hsized, rfl⟩ := (render_eq_ok_iff package r source document).mp hrender
  refine ⟨package, _, (PackageName.ofString_eq_ok_iff.mp hname).symm, rfl, ?_,
    fun _ => forall₂_states_iff hsized⟩
  intro a ha
  obtain ⟨b, hb, rfl⟩ := List.mem_map.mp ha
  exact Lint.isIdentifier_of_no_invalid h.valid_names b hb

/-- Cut at its line feeds a rendered file is the package clause, an empty line and one
assertion for each registry entry, with nothing behind the last line feed. There is no
carriage return in it, its package and its assertions are read back, and another rendered
file is the same text only if it has the same package and asserts the same sizes. -/
theorem decode_rendered {name document : String} (h : Rendered name r source document) :
    ∃ as, List.Forall₂ (States source) r.bindings as ∧
      document.toList.splitOn '\n' = ("package " ++ name).toList :: [] ::
        as.map (fun a => ("#assert(size_of(" ++ a.name ++ ") == " ++
          Text.Decimal.text a.size.toNat ++ ")").toList) ++ [[]] ∧
      '\r' ∉ document.toList ∧
      decode? document = some (name, as) ∧
      ∀ name' r' source' document' as', Rendered name' r' source' document' →
        List.Forall₂ (States source') r'.bindings as' →
        (document = document' ↔ name = name' ∧ as = as') := by
  obtain ⟨package, as, rfl, rfl, has, hunique⟩ := h.exists_assertions
  refine ⟨as, (hunique as).mpr rfl, splitOn_format has, no_return_format has,
    decode?_format has, ?_⟩
  intro name' r' source' document' as' h' hstates
  obtain ⟨package', _, rfl, rfl, has', hunique'⟩ := h'.exists_assertions
  obtain rfl := (hunique' as').mp hstates
  exact format_eq_iff has has'

/-! A type that is listed twice, with the largest size there is -/

def listedTwice : Registry :=
  ⟨[⟨⟨.union, "nk_page_data"⟩, "Page_Data"⟩, ⟨⟨.union, "nk_page_data"⟩, "Page_Data"⟩]⟩

def largestDocument : String :=
  "package nuklear\n\n" ++
    "#assert(size_of(Page_Data) == 18446744073709551615)\n" ++
    "#assert(size_of(Page_Data) == 18446744073709551615)\n"

/-- The largest size of all, stated for two entries of one name. -/
theorem decode_largestDocument :
    Rendered "nuklear" listedTwice (fun _ => some 18446744073709551615) largestDocument ∧
      decode? largestDocument = some ("nuklear",
        [⟨"Page_Data", 18446744073709551615⟩, ⟨"Page_Data", 18446744073709551615⟩]) := by
  have hlint : Lint.registry listedTwice =
      [.duplicateNative "union nk_page_data" ["Page_Data", "Page_Data"] [0, 1]] := by decide
  have hrendered : Rendered "nuklear" listedTwice (fun _ => some 18446744073709551615)
      largestDocument := {
    valid_names := by simp [hlint]
    rendered := ⟨⟨"nuklear", by decide⟩, PackageName.ofString_eq_ok_iff.mpr rfl,
      by decide +kernel⟩ }
  obtain ⟨as, hstates, -, -, hdecode, -⟩ := decode_rendered hrendered
  have hsized : Sized listedTwice (fun _ => some 18446744073709551615) :=
    fun _ _ => ⟨18446744073709551615, by decide, rfl⟩
  rw [(forall₂_states_iff hsized).mp hstates] at hdecode
  exact ⟨hrendered, hdecode⟩

end LayoutGuard.AssertionFile
