import Mathlib.Data.List.Basic
import LayoutGuard.Proofs.Header.Template
import LayoutGuard.Proofs.Header.WellFormed
import LayoutGuard.Proofs.Lint.Completeness
import LayoutGuard.Proofs.Text.Places

/-!
What a scan makes of the tag of a struct or union with a body. A tag that no typedef
carries is found as a type of its own. The tag of a typedef is left to the typedef, and
so it is found only if a typedef with that tag is the first one of its name that the
settings let through, or if a macro defines the same type once more. A registry entry
with the spelling of the tag is reported as unknown in all other cases.
-/

namespace LayoutGuard.Header

open Text (isBlank isWordChar isNameStart)

/-! Spellings of structs and unions -/

theorem Composite.toList_spelling (k : Composite) (name : String) :
    (CType.spelling ⟨k.kind, name⟩).toList = k.keyword ++ ' ' :: name.toList := by
  cases k with
  | struct => exact String.toList_append
  | union => exact String.toList_append

/-- Keyword and tag can be read off a spelling. -/
theorem Composite.spelling_injective {j k : Composite} {name other : String}
    (h : CType.spelling ⟨j.kind, name⟩ = CType.spelling ⟨k.kind, other⟩) :
    j.kind = k.kind ∧ name = other := by
  have hplain (i : Composite) : ∀ c ∈ i.keyword, (c != ' ') = true := by
    cases i <;> exact List.all_eq_true.mp (by decide)
  have htexts : j.keyword ++ ' ' :: name.toList = k.keyword ++ ' ' :: other.toList := by
    rw [← j.toList_spelling, h, k.toList_spelling]
  obtain ⟨hkeyword, hname⟩ := Text.eq_of_stop (hplain j) rfl (hplain k) rfl htexts
  constructor
  · cases j <;> cases k <;> first | rfl | exact absurd hkeyword (by decide)
  · exact String.ext (List.cons.inj hname).2

/-- No typedef is named like a struct or union is spelled. -/
theorem Composite.spelling_ne {k : Composite} {name other : String} (hname : ' ' ∉ name.toList) :
    CType.spelling ⟨k.kind, other⟩ ≠ name := by
  rintro rfl
  exact hname (by simp [k.toList_spelling])

/-! Names of the definitions that are found -/

/-- A struct or union, or a typedef whose name is a single word. -/
def Definition.WellNamed : Definition → Prop
  | tagged t => ∃ k : Composite, t.kind = k.kind
  | typedef name _ => ' ' ∉ name.toList
  | stamped t => ∃ k : Composite, t.kind = k.kind

theorem exists_composite_of_stamped? {ms : List Macro} {cs : List Char} {t : CType}
    (h : stamped? ms cs = some t) : ∃ k : Composite, t.kind = k.kind := by
  simp only [stamped?, Option.bind_eq_bind, Option.bind_eq_some_iff] at h
  obtain ⟨⟨name, _⟩, -, _, -, -, -, template, hfind, hexpand⟩ := h
  simp only [Template.expand?, Option.bind_eq_bind, Option.bind_eq_some_iff] at hexpand
  obtain ⟨_, -, -, -, heq⟩ := hexpand
  cases heq
  exact (wellFormed_of_findTemplate? hfind).composite

theorem exists_composite_of_taggedHead? {cs : List Char} {t : CType}
    (h : taggedHead? cs = some t) : ∃ k : Composite, t.kind = k.kind := by
  simp only [taggedHead?, Option.bind_eq_bind, Option.bind_eq_some_iff] at h
  obtain ⟨⟨kind, _⟩, hkeyword, _, -, _, -, _, -, heq⟩ := h
  cases heq
  obtain ⟨k, hk, -⟩ := exists_composite hkeyword
  exact ⟨k, hk⟩

theorem space_not_mem_of_typedef? {cs : List Char} {name : String} {tag : Option String}
    (h : typedef? cs = some (name, tag)) : ' ' ∉ name.toList := by
  simp only [typedef?, Option.bind_eq_bind, Option.bind_eq_some_iff] at h
  obtain ⟨_, -, _, -, _, -, -, -, _, -, ⟨text, rest⟩, hname, _, -, heq⟩ := h
  cases heq
  obtain ⟨-, -, hword⟩ := Text.exists_name_of_name? hname
  intro hspace
  rw [String.toList_ofList] at hspace
  exact absurd (hword ' ' hspace) (by decide)

/-- Whatever is found is a struct or a union, or a typedef with a single word for its name. -/
theorem wellNamed_of_definition? {ms : List Macro} {place : Option Char × List Char}
    {d : Definition} (h : definition? ms place = some d) : d.WellNamed := by
  rw [definition?] at h
  split at h
  · split at h
    · rename_i hread
      cases h
      exact space_not_mem_of_typedef? hread
    · split at h
      · rename_i hread
        cases h
        exact exists_composite_of_taggedHead? hread
      · obtain ⟨t, hread, rfl⟩ := Option.map_eq_some_iff.mp h
        exact exists_composite_of_stamped? hread
  · cases h

theorem wellNamed_of_mem {cs : List Char} {d : Definition} (hd : d ∈ definitions cs) :
    d.WellNamed := by
  obtain ⟨place, -, hread⟩ := List.mem_filterMap.mp hd
  exact wellNamed_of_definition? hread

/-! Where a definition is found -/

def searched (s : LintSettings) (header : String) : List Char :=
  (splitMacros true (stripComments (publicPart s header.toList))).2

def allDefinitions (s : LintSettings) (header : String) : List Definition :=
  definitions (stripComments (publicPart s header.toList))

/-- The head of the definition of a tagged type stands somewhere in a text, with any
white space in it. -/
def Defines (source : List Char) (k : Composite) (tag : Tag) : Prop :=
  ∃ before gap gap' rest,
    source = before ++ (k.keyword ++ (gap ++ (tag.text ++ (gap' ++ '\x7b' :: rest)))) ∧
      before.getLast?.any isWordChar = false ∧ gap ≠ [] ∧
      (∀ c ∈ gap, isBlank c = true) ∧ ∀ c ∈ gap', isBlank c = true

variable {s : LintSettings} {header : String} {k : Composite} {tag : Tag}

/-- The head of a tagged type is among the definitions, wherever it stands. -/
theorem tagged_mem_allDefinitions (h : Defines (searched s header) k tag) :
    .tagged (tag.type k) ∈ allDefinitions s header := by
  obtain ⟨before, gap, gap', rest, hsource, hbefore, hnil, hgap, hgap'⟩ := h
  obtain ⟨c, keyword, hkeyword⟩ := List.exists_cons_of_ne_nil k.keyword_ne_nil
  refine List.mem_filterMap.mpr
    ⟨(before.getLast?, k.keyword ++ (gap ++ (tag.text ++ (gap' ++ '\x7b' :: rest)))), ?_, ?_⟩
  · have hplace := Text.mem_places none before c
      (keyword ++ (gap ++ (tag.text ++ (gap' ++ '\x7b' :: rest))))
    rw [Option.or_none, ← List.cons_append, ← hkeyword, ← hsource] at hplace
    exact hplace
  · exact definition?_spaced hbefore _ k tag hnil hgap hgap' rest

/-! Which definitions a scan keeps -/

/-- The type that a definition gives, if the settings let it through. -/
def Definition.shown? (s : LintSettings) (tags : List String) (d : Definition) :
    Option HeaderType :=
  (d.type? tags).filter (isPublic s)

theorem Definition.shown?_eq_some_iff {tags : List String} {d : Definition} {t : HeaderType} :
    d.shown? s tags = some t ↔ d.type? tags = some t ∧ Shown s t := by
  rw [Definition.shown?, Option.filter_eq_some_iff, isPublic_eq, decide_eq_true_iff]

def typedefTags (s : LintSettings) (header : String) : List String :=
  (allDefinitions s header).filterMap Definition.tag?

/-- A scan is the list of all definitions that are shown, the first of each spelling. -/
theorem scan_eq : scan s header = Text.distinctBy HeaderType.spelling
    ((allDefinitions s header).filterMap (Definition.shown? s (typedefTags s header))) := by
  rw [scan, List.filter_filterMap]
  rfl

/-- A shown definition is found under its spelling, be it as another definition. -/
theorem exists_mem_scan {d : Definition} {t : HeaderType} (hd : d ∈ allDefinitions s header)
    (ht : d.type? (typedefTags s header) = some t) (hshown : Shown s t) :
    ∃ u ∈ scan s header, u.spelling = t.spelling := by
  rw [scan_eq]
  exact Text.exists_mem_distinctBy HeaderType.spelling
    (List.mem_filterMap.mpr ⟨d, hd, Definition.shown?_eq_some_iff.mpr ⟨ht, hshown⟩⟩)

/-- The first typedef of its name that the settings let through carries a tag. -/
def CarriesTag (s : LintSettings) (found : List Definition) (spelling : String) : Prop :=
  ∃ before name after, found = before ++ .typedef name (some spelling) :: after ∧
    Shown s ⟨⟨.typedef, name⟩, some spelling⟩ ∧
    ∀ other, .typedef name other ∈ before → ¬Shown s ⟨⟨.typedef, name⟩, other⟩

/-- A tag is carried exactly when a typedef of the scan has it. -/
theorem carriesTag_iff {spelling : String} :
    CarriesTag s (allDefinitions s header) spelling ↔
      ∃ name, ⟨⟨.typedef, name⟩, some spelling⟩ ∈ scan s header := by
  simp only [scan_eq, Text.mem_distinctBy_iff, Text.isFirst_filterMap_iff,
    Definition.shown?_eq_some_iff]
  constructor
  · rintro ⟨before, name, after, hsplit, hshown, hfirst⟩
    refine ⟨name, before, _, after, hsplit, ⟨rfl, hshown⟩, ?_⟩
    have hmem : ∀ c, c ∈ before ∨ c = .typedef name (some spelling) →
        c ∈ allDefinitions s header := by
      intro c hc
      rw [hsplit]
      rcases hc with hc | rfl
      · exact List.mem_append_left _ hc
      · exact List.mem_append_right _ List.mem_cons_self
    have hname : ' ' ∉ name.toList := wellNamed_of_mem (hmem _ (Or.inr rfl))
    have hcomposite {t : CType} (ht : ∃ j : Composite, t.kind = j.kind) : t.spelling ≠ name := by
      obtain ⟨j, hj⟩ := ht
      obtain ⟨kind, other⟩ := t
      cases hj
      exact j.spelling_ne hname
    rintro c hc u ⟨htype, hu⟩
    have hwell := wellNamed_of_mem (hmem c (Or.inl hc))
    cases c with
    | tagged t =>
      rw [Definition.type?] at htype
      split at htype
      · cases htype
      · cases htype
        exact hcomposite hwell
    | typedef other tag =>
      cases htype
      rintro rfl
      exact hfirst tag hc hu
    | stamped t =>
      cases htype
      exact hcomposite hwell
  · rintro ⟨name, before, d, after, hsplit, ⟨htype, hshown⟩, hfirst⟩
    have hd : d = .typedef name (some spelling) := by
      cases d with
      | tagged t =>
        rw [Definition.type?] at htype
        split at htype <;> cases htype
      | typedef other tag =>
        cases htype
        rfl
      | stamped t => cases htype
    subst hd
    refine ⟨before, name, after, hsplit, hshown, fun other hother hu => ?_⟩
    exact hfirst _ hother ⟨⟨.typedef, name⟩, other⟩ ⟨rfl, hu⟩ rfl

/-! What becomes of a tag -/

/-- What it takes for a type of a header to be found under its spelling. -/
def Kept (s : LintSettings) (header : String) (t : CType) : Prop :=
  t.spelling ∉ typedefTags s header ∨ .stamped t ∈ allDefinitions s header ∨
    CarriesTag s (allDefinitions s header) t.spelling

/-- A tag that is kept is found under its spelling, or beside a typedef. -/
theorem exists_designating_of_kept (hdefines : Defines (searched s header) k tag)
    (hshown : Shown s ⟨tag.type k, none⟩) (hkept : Kept s header (tag.type k)) :
    ∃ t ∈ scan s header, (tag.type k).spelling ∈ t.spellings := by
  have hown {t : HeaderType} (ht : t.spelling = (tag.type k).spelling) :
      (tag.type k).spelling ∈ t.spellings := by
    rw [← ht]
    exact List.mem_cons_self
  rcases hkept with hfree | hstamped | hcarries
  · have htype : Definition.type? (typedefTags s header) (.tagged (tag.type k)) =
        some ⟨tag.type k, none⟩ := by
      rw [Definition.type?, if_neg (by simpa using hfree)]
    obtain ⟨t, ht, hspelling⟩ :=
      exists_mem_scan (tagged_mem_allDefinitions hdefines) htype hshown
    exact ⟨t, ht, hown hspelling⟩
  · obtain ⟨t, ht, hspelling⟩ := exists_mem_scan hstamped rfl hshown
    exact ⟨t, ht, hown hspelling⟩
  · obtain ⟨name, ht⟩ := carriesTag_iff.mp hcarries
    exact ⟨_, ht, by simp [HeaderType.spellings]⟩

/-- A tag that is found was kept. -/
theorem kept_of_designating {t : HeaderType} (ht : t ∈ scan s header)
    (hspelling : (tag.type k).spelling ∈ t.spellings) : Kept s header (tag.type k) := by
  by_cases hfree : (tag.type k).spelling ∈ typedefTags s header
  · refine Or.inr ?_
    have hscan := ht
    rw [scan_eq, Text.mem_distinctBy_iff, Text.isFirst_filterMap_iff] at hscan
    obtain ⟨before, d, after, hsplit, hshown, -⟩ := hscan
    have hd : d ∈ allDefinitions s header := by
      rw [hsplit]
      exact List.mem_append_right _ List.mem_cons_self
    have hwell := wellNamed_of_mem hd
    have htype := (Definition.shown?_eq_some_iff.mp hshown).1
    cases d with
    | tagged u =>
      rw [Definition.type?] at htype
      split at htype
      · cases htype
      · rename_i hother
        cases htype
        have heq : (tag.type k).spelling = u.spelling := List.mem_singleton.mp hspelling
        rw [heq] at hfree
        exact absurd (List.contains_iff_mem.mpr hfree) hother
    | typedef name other =>
      cases htype
      rcases List.mem_cons.mp hspelling with heq | hother
      · exact absurd heq (k.spelling_ne hwell)
      · rw [Option.mem_toList] at hother
        cases hother
        exact Or.inr (carriesTag_iff.mpr ⟨name, ht⟩)
    | stamped u =>
      cases htype
      obtain ⟨j, hj⟩ := hwell
      obtain ⟨kind, name⟩ := u
      cases hj
      obtain ⟨hkind, hname⟩ := Composite.spelling_injective (List.mem_singleton.mp hspelling)
      exact Or.inl (by rwa [Tag.type, hkind, hname])
  · exact Or.inl hfree

/-- A struct or union that a header defines, and that the settings ask for by its tag, is
designated by a type that the scan returns exactly if it is kept, whether or not its body
is closed. Otherwise a registry entry for it is reported as unknown to the header. -/
theorem tag_designated_iff (s : LintSettings) (header : String) (k : Composite) (tag : Tag)
    (hdefines : Defines (searched s header) k tag)
    (hbegins : s.namePrefix.toList <+: tag.text)
    (hname : (tag.type k).name ∉ s.ignored) (hspelling : (tag.type k).spelling ∉ s.ignored) :
    ((∃ t ∈ scan s header, (tag.type k).spelling ∈ t.spellings) ↔ Kept s header (tag.type k)) ∧
      ∀ r : Registry, (tag.type k).spelling ∈ r.spellings →
        ((∃ odinName, Finding.unknownToHeader (tag.type k).spelling odinName ∈
            Lint.completeness r (scan s header)) ↔ ¬Kept s header (tag.type k)) := by
  have hshown : Shown s ⟨tag.type k, none⟩ := by
    refine ⟨?_, hname, ?_⟩
    · rwa [Tag.type, String.toList_ofList]
    · intro spelling hmem
      rw [List.mem_singleton.mp hmem]
      exact hspelling
  have hfound : (∃ t ∈ scan s header, (tag.type k).spelling ∈ t.spellings) ↔
      Kept s header (tag.type k) :=
    ⟨fun ⟨_, ht, hin⟩ => kept_of_designating ht hin, exists_designating_of_kept hdefines hshown⟩
  refine ⟨hfound, fun r hr => ?_⟩
  rw [Lint.exists_unknownToHeader_iff, and_iff_right hr, ← hfound]
  simp only [not_exists, not_and]

def sampleTag : Tag where
  text := "nk_a".toList
  starts := rfl
  isWordChar := List.all_eq_true.mp (by decide)

/-- The tag behind the word `typedef`, with single spaces. -/
theorem defines_sampleTag {source rest : List Char}
    (hsource : source = typedefWord ++ [' '] ++ (Composite.struct.keyword ++ ([' '] ++
      (sampleTag.text ++ ([' '] ++ '\x7b' :: rest))))) :
    Defines source .struct sampleTag := by
  have hspace : ∀ c ∈ [' '], isBlank c = true := List.all_eq_true.mp (by decide)
  exact ⟨_, [' '], [' '], rest, hsource, by decide, List.cons_ne_nil ' ' [], hspace, hspace⟩

def keptName : String :=
  "nk_t"

/-- The typedef has a public name, and another one without a tag follows it. -/
def keptTag : String :=
  "typedef struct nk_a \x7bint x;\x7d nk_t;\ntypedef struct \x7bint y;\x7d nk_t;\n"

/-- The typedef has no public name. -/
def lostTag : String :=
  "typedef struct nk_a \x7bint x;\x7d a_t;\n"

/-- Of two typedefs with one name the first one counts, and it carries the tag. -/
theorem keptTag_is_designated :
    Defines (searched .default keptTag) .struct sampleTag ∧
      Kept .default keptTag (sampleTag.type .struct) ∧
      ∃ t ∈ scan .default keptTag, (sampleTag.type .struct).spelling ∈ t.spellings := by
  have hsource : searched .default keptTag = typedefWord ++ [' '] ++ (Composite.struct.keyword ++
      ([' '] ++ (sampleTag.text ++ ([' '] ++ '\x7b' ::
        "int x;\x7d nk_t;\ntypedef struct \x7bint y;\x7d nk_t;\n".toList)))) := by
    decide +kernel
  have hdefines := defines_sampleTag hsource
  have hkept : Kept .default keptTag (sampleTag.type .struct) := by
    refine Or.inr (Or.inr
      ⟨[], keptName, [.tagged (sampleTag.type .struct), .typedef keptName none], ?_, ?_⟩)
    · decide +kernel
    · exact ⟨by decide, fun _ h => absurd h List.not_mem_nil⟩
  have hfound := (tag_designated_iff .default keptTag .struct sampleTag hdefines
    (by decide) (by decide) (by decide)).1
  exact ⟨hdefines, hkept, hfound.mpr hkept⟩

/-- A scan finds nothing in a header that defines a public struct, and a registry entry
for that struct is reported. -/
theorem lostTag_is_not_designated :
    Defines (searched .default lostTag) .struct sampleTag ∧
      LintSettings.default.namePrefix.toList <+: sampleTag.text ∧
      LintSettings.default.ignored = [] ∧ scan .default lostTag = [] ∧
      Lint.completeness ⟨[⟨sampleTag.type .struct, "Sample"⟩]⟩ (scan .default lostTag) =
        [.unknownToHeader "struct nk_a" "Sample"] := by
  have hscan : scan .default lostTag = [] := by decide +kernel
  have hsource : searched .default lostTag = typedefWord ++ [' '] ++ (Composite.struct.keyword ++
      ([' '] ++ (sampleTag.text ++ ([' '] ++ '\x7b' :: "int x;\x7d a_t;\n".toList)))) := by
    decide +kernel
  refine ⟨defines_sampleTag hsource, ?_, rfl, hscan, ?_⟩
  · decide
  · rw [hscan]
    decide

end LayoutGuard.Header
