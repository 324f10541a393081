import Mathlib.Data.List.Nodup
import Mathlib.Data.List.Pairwise
import LayoutGuard.Proofs.Header.Comment
import LayoutGuard.Proofs.Header.Definition
import LayoutGuard.Proofs.Text.Distinct

/-!
Well-formed headers as lists of items: tagged types, typedefs with or without a tag,
forward declarations and comments. A scan of the text of such a header finds the types
of its items in their order, leaves out the tags of typedefs, and keeps what the settings
ask for. Bodies may be nested to any depth, comments may contain anything that does not
end them, and anything may stand behind the marker.
-/

namespace LayoutGuard.Header

/-- An item of a header, which takes up whole lines. -/
inductive Item
  | tagged (kind : Composite) (name : Identifier) (body : Body)
  | typedef (kind : Composite) (tag : Option Identifier) (body : Body) (name : Identifier)
  | forward (kind : Composite) (name : Identifier)
  | comment (comment : CommentText)

/-- The text of an item with a space for each comment. -/
def Item.source : Item → List Char
  | tagged kind name body =>
    kind.keyword ++ ' ' :: (name.text ++ ' ' :: '\x7b' :: (body.text ++ ['\x7d', ';', '\n']))
  | typedef kind tag body name =>
    typedefWord ++ ' ' :: (kind.keyword ++ ' ' :: (tagText tag ++
      '\x7b' :: (body.text ++ '\x7d' :: ' ' :: (name.text ++ [';', '\n']))))
  | forward kind name => kind.keyword ++ ' ' :: (name.text ++ [';', '\n'])
  | comment _ => [' ', '\n']

def Item.text : Item → List Char
  | comment c => '/' :: '*' :: (c.text ++ ['*', '/', '\n'])
  | item => item.source

def Item.definitions : Item → List Definition
  | tagged kind name _ => [.tagged (kind.type name)]
  | typedef kind tag _ name =>
    .typedef (String.ofList name.text) (tag.map fun t => (kind.type t).spelling) ::
      tag.toList.map fun t => .tagged (kind.type t)
  | _ => []

def Item.type? : Item → Option HeaderType
  | tagged kind name _ => some ⟨kind.type name, none⟩
  | typedef kind tag _ name =>
    some ⟨⟨.typedef, String.ofList name.text⟩, tag.map fun t => (kind.type t).spelling⟩
  | _ => none

/-- What settings ask of a type: the prefix, and that nothing about it is ignored. -/
def Shown (s : LintSettings) (t : HeaderType) : Prop :=
  s.namePrefix.toList <+: t.ctype.name.toList ∧ t.ctype.name ∉ s.ignored ∧
    ∀ spelling ∈ t.spellings, spelling ∉ s.ignored

instance (s : LintSettings) (t : HeaderType) : Decidable (Shown s t) :=
  inferInstanceAs (Decidable (_ ∧ _ ∧ _))

theorem isPublic_eq (s : LintSettings) (t : HeaderType) : isPublic s t = decide (Shown s t) := by
  rw [isPublic, Bool.eq_iff_iff, decide_eq_true_iff, Shown]
  simp only [Bool.and_eq_true, List.isPrefixOf_iff_prefix, Bool.not_eq_true', List.any_eq_false,
    Bool.or_eq_true, decide_eq_true_eq, List.contains_iff_mem, not_or]
  refine and_congr_right fun _ => ⟨fun h => ?_, fun h i hi => ?_⟩
  · exact ⟨fun hname => (h _ hname).1 rfl, fun u hu hin => (h u hin).2 hu⟩
  · exact ⟨fun heq => h.1 (heq ▸ hi), fun hu => h.2 i hu hi⟩

/-! The text that is scanned -/

theorem Item.unsigned_source (i : Item) : ∀ c ∈ i.source, Unsigned c := by
  cases i with
  | tagged kind name body =>
    simp only [Item.source, List.forall_mem_append, List.forall_mem_cons]
    exact ⟨kind.unsigned_keyword, by decide, name.unsigned, by decide, by decide, body.unsigned,
      by decide, by decide, by decide, List.forall_mem_nil _⟩
  | typedef kind tag body name =>
    have hword : ∀ c ∈ typedefWord, Unsigned c := fun c hc =>
      unsigned_of_isNameRest (isNameRest_typedefWord c hc)
    have htag : ∀ c ∈ tagText tag, Unsigned c := by
      cases tag with
      | none => exact fun c hc => absurd hc List.not_mem_nil
      | some t =>
        exact List.forall_mem_append.mpr ⟨t.unsigned, List.forall_mem_singleton.mpr (by decide)⟩
    simp only [Item.source, List.forall_mem_append, List.forall_mem_cons]
    exact ⟨hword, by decide, kind.unsigned_keyword, by decide, htag, by decide, body.unsigned,
      by decide, by decide, name.unsigned, by decide, by decide, List.forall_mem_nil _⟩
  | forward kind name =>
    simp only [Item.source, List.forall_mem_append, List.forall_mem_cons]
    exact ⟨kind.unsigned_keyword, by decide, name.unsigned, by decide, by decide,
      List.forall_mem_nil _⟩
  | comment c =>
    simp only [Item.source, List.forall_mem_cons]
    exact ⟨by decide, by decide, List.forall_mem_nil _⟩

/-- Removing block comments leaves an item with a space for each of them. -/
theorem Item.stripBlocks (i : Item) (rest : List Char) :
    Header.stripBlocks (i.text ++ rest) = i.source ++ Header.stripBlocks rest := by
  have hplain (j : Item) :
      Header.stripBlocks (j.source ++ rest) = j.source ++ Header.stripBlocks rest :=
    stripBlocks_append (slash_not_mem j.unsigned_source) rest
  cases i with
  | tagged kind name body => exact hplain (.tagged kind name body)
  | typedef kind tag body name => exact hplain (.typedef kind tag body name)
  | forward kind name => exact hplain (.forward kind name)
  | comment c =>
    have hfeed : Header.stripBlocks ('\n' :: rest) = '\n' :: Header.stripBlocks rest :=
      stripBlocks_append (u := ['\n']) (by decide) rest
    have htext : (Item.comment c).text ++ rest =
        '/' :: '*' :: (c.text ++ '*' :: '/' :: '\n' :: rest) := by
      simp [Item.text]
    rw [htext, stripBlocks_comment, hfeed]
    rfl

def text (items : List Item) : List Char :=
  items.flatMap Item.text

def source (items : List Item) : List Char :=
  items.flatMap Item.source

theorem unsigned_source (items : List Item) : ∀ c ∈ source items, Unsigned c := by
  intro c hc
  obtain ⟨i, -, hi⟩ := List.mem_flatMap.mp hc
  exact i.unsigned_source c hi

/-- Removing comments leaves the sources of the items. -/
theorem stripComments_text (items : List Item) : stripComments (text items) = source items := by
  have hblocks : Header.stripBlocks (text items) = source items := by
    induction items with
    | nil => rw [text, List.flatMap_nil, Header.stripBlocks]; rfl
    | cons i items ih =>
      rw [text, List.flatMap_cons, i.stripBlocks, ← text, ih, source, source, List.flatMap_cons]
  rw [stripComments, hblocks, stripLinesFrom_eq_self (slash_not_mem (unsigned_source items))]

/-! The end of the public part -/

theorem Item.getLast?_text (i : Item) : i.text.getLast? = some '\n' := by
  cases i <;> simp [Item.text, Item.source, List.getLast?_append, List.getLast?_cons]

theorem getLast?_text {items : List Item} {c : Char} (h : (text items).getLast? = some c) :
    c = '\n' := by
  induction items with
  | nil => cases h
  | cons i items ih =>
    rw [text, List.flatMap_cons, List.getLast?_append, i.getLast?_text, Option.or_eq_some_iff] at h
    rcases h with h | ⟨-, h⟩
    · exact ih h
    · exact (Option.some.inj h).symm

/-- What follows the items: nothing, or the marker and any text. -/
def Hidden (s : LintSettings) (tail : List Char) : Prop :=
  tail = [] ∨ ∃ mark further, s.implementationMarker = some mark ∧ tail = mark.toList ++ further

/-- The public part of a header ends behind its items. -/
theorem publicPart_text (s : LintSettings) (items : List Item) (tail : List Char)
    (hmarker : ∀ mark, s.implementationMarker = some mark →
      '\n' ∉ mark.toList ∧ ¬mark.toList <:+: text items)
    (htail : Hidden s tail) : publicPart s (text items ++ tail) = text items := by
  rw [publicPart]
  cases hset : s.implementationMarker with
  | none =>
    rcases htail with rfl | ⟨mark, -, hmark, -⟩
    · exact List.append_nil _
    · rw [hset] at hmark
      cases hmark
  | some mark =>
    obtain ⟨hfeed, habsent⟩ := hmarker mark hset
    -- The items end in a line feed, which no marker can reach across.
    have hwithin : ∀ v, v ≠ [] → v <:+ text items → ¬mark.toList <+: v ++ tail := by
      intro v hnil hv
      have hlast : v.getLast? = some '\n' := by
        obtain ⟨u, hu⟩ := hv
        have hend : (text items).getLast? = some (v.getLast hnil) := by
          rw [← hu, List.getLast?_append, List.getLast?_eq_some_getLast hnil]
          rfl
        rw [List.getLast?_eq_some_getLast hnil, getLast?_text hend]
      exact not_prefix_of_lines hfeed hlast fun h => habsent (h.trans hv.isInfix)
    have hmark : mark.toList ≠ [] := fun h => habsent (by rw [h]; exact List.nil_infix)
    have hstop : Text.before mark.toList tail = [] := by
      rcases htail with rfl | ⟨mark', further, hset', rfl⟩
      · rfl
      · rw [hset] at hset'
        cases hset'
        exact before_mark hmark further
    dsimp only
    rw [before_append tail hwithin, hstop, List.append_nil]

/-! The definitions that are found -/

/-- An item gives its own definitions, whatever follows it. -/
theorem Item.definitionsFrom (i : Item) (rest : List Char) :
    Header.definitionsFrom none (i.source ++ rest) =
      i.definitions ++ Header.definitionsFrom none rest := by
  cases i with
  | tagged kind name body =>
    simp only [Item.source, List.append_assoc, List.cons_append, List.nil_append]
    rw [definitionsFrom_tagged, definitionsFrom_sign (by decide), definitionsFrom_sign (by decide)]
    rfl
  | typedef kind tag body name =>
    simp only [Item.source, List.append_assoc, List.cons_append, List.nil_append]
    rw [definitionsFrom_typedef, definitionsFrom_sign (by decide)]
    rfl
  | forward kind name =>
    have hplain : '\x7b' ∉ kind.keyword ++ ' ' :: name.text := by
      rw [List.mem_append, not_or]
      exact ⟨fun h => (braceless_of_isNameRest (kind.isNameRest_keyword _ h)).1 rfl,
        open_brace_not_mem_name name⟩
    have hsplit : (Item.forward kind name).source ++ rest =
        (kind.keyword ++ ' ' :: name.text) ++ ';' :: '\n' :: rest := by
      simp [Item.source]
    rw [hsplit, definitionsFrom_member hplain, definitionsFrom_sign (by decide)]
    rfl
  | comment c =>
    change Header.definitionsFrom none (' ' :: '\n' :: rest) = Header.definitionsFrom none rest
    rw [definitionsFrom_sign (by decide), definitionsFrom_sign (by decide)]

/-- The definitions of a header are those of its items, in order. -/
theorem definitions_source (items : List Item) :
    definitions (source items) = items.flatMap Item.definitions := by
  rw [definitions, splitMacros_eq_self (sign_not_mem (unsigned_source items))]
  change Header.definitionsFrom none (source items) = _
  induction items with
  | nil => rfl
  | cons i items ih =>
    rw [source, List.flatMap_cons, i.definitionsFrom, ← source, ih, List.flatMap_cons]

def types (items : List Item) : List HeaderType :=
  items.filterMap Item.type?

theorem filterMap_flatMap_eq {α β γ : Type} {f : α → List β} {g : β → Option γ}
    {h : α → Option γ} {as : List α} (hsame : ∀ a ∈ as, (f a).filterMap g = (h a).toList) :
    (as.flatMap f).filterMap g = as.filterMap h := by
  rw [List.filterMap_flatMap, List.filterMap_eq_flatMap_toList]
  exact List.flatMap_congr hsame

theorem Item.filterMap_tag? (i : Item) :
    i.definitions.filterMap Definition.tag? = (i.type?.bind HeaderType.tagSpelling).toList := by
  cases i with
  | typedef kind tag body name => cases tag <;> rfl
  | _ => rfl

/-- The tags that typedefs carry are those of the header's types. -/
theorem tags_definitions (items : List Item) :
    (items.flatMap Item.definitions).filterMap Definition.tag? =
      (types items).filterMap HeaderType.tagSpelling := by
  rw [filterMap_flatMap_eq fun i _ => i.filterMap_tag?, types, List.filterMap_filterMap]

theorem Item.filterMap_type? {i : Item} {tags : List String}
    (htags : ∀ t, i.type? = some t →
      (∀ tag, t.tagSpelling = some tag → tag ∈ tags) ∧ (t.tagSpelling = none → t.spelling ∉ tags)) :
    i.definitions.filterMap (Definition.type? tags) = i.type?.toList := by
  cases i with
  | tagged kind name body =>
    have hfree : (kind.type name).spelling ∉ tags := (htags _ rfl).2 rfl
    simp [Item.definitions, Item.type?, Definition.type?, hfree]
  | typedef kind tag body name =>
    cases tag with
    | none => rfl
    | some t =>
      have hown : (kind.type t).spelling ∈ tags := (htags _ rfl).1 _ rfl
      simp [Item.definitions, Item.type?, Definition.type?, hown]
  | _ => rfl

/-- Where all spellings differ, no tag of a typedef designates another type. -/
theorem spelling_not_mem_tags {ts : List HeaderType}
    (hdistinct : (ts.flatMap HeaderType.spellings).Nodup) {t : HeaderType} (ht : t ∈ ts)
    (hnone : t.tagSpelling = none) : t.spelling ∉ ts.filterMap HeaderType.tagSpelling := by
  intro hmem
  obtain ⟨u, hu, htag⟩ := List.mem_filterMap.mp hmem
  have hne : t ≠ u := by
    rintro rfl
    rw [hnone] at htag
    cases htag
  have hsymm : Std.Symm (Function.onFun List.Disjoint HeaderType.spellings) :=
    ⟨fun _ _ h _ hleft hright => h hright hleft⟩
  have hdisjoint := (List.nodup_flatMap.mp hdistinct).2.forall ht hu hne
  exact hdisjoint List.mem_cons_self (by simp [HeaderType.spellings, htag])

/-- When all spellings differ, each item gives its type. -/
theorem types_definitions {items : List Item}
    (hdistinct : ((types items).flatMap HeaderType.spellings).Nodup) :
    (items.flatMap Item.definitions).filterMap
        (Definition.type? ((types items).filterMap HeaderType.tagSpelling)) = types items := by
  refine filterMap_flatMap_eq fun i hi => Item.filterMap_type? fun t ht => ?_
  have hmem : t ∈ types items := List.mem_filterMap.mpr ⟨i, hi, ht⟩
  exact ⟨fun tag htag => List.mem_filterMap.mpr ⟨t, hmem, htag⟩,
    spelling_not_mem_tags hdistinct hmem⟩

theorem map_spelling_sublist (ts : List HeaderType) :
    (ts.map HeaderType.spelling).Sublist (ts.flatMap HeaderType.spellings) := by
  induction ts with
  | nil => exact List.Sublist.refl []
  | cons t ts ih =>
    exact (ih.trans (List.sublist_append_right _ _)).cons_cons t.spelling

/-- A scan of a well-formed header finds the types of its items that the settings let
through, in their order and with their tags. -/
theorem scan_text (s : LintSettings) (items : List Item) (tail : List Char)
    (hdistinct : ((types items).flatMap HeaderType.spellings).Nodup)
    (hmarker : ∀ mark, s.implementationMarker = some mark →
      '\n' ∉ mark.toList ∧ ¬mark.toList <:+: text items)
    (htail : Hidden s tail) :
    scan s (String.ofList (text items ++ tail)) =
      (types items).filter fun t => decide (Shown s t) := by
  have hpublic : isPublic s = fun t => decide (Shown s t) := funext (isPublic_eq s)
  have hkeys : (((types items).filter (isPublic s)).map HeaderType.spelling).Nodup :=
    hdistinct.sublist ((List.filter_sublist.map _).trans (map_spelling_sublist (types items)))
  rw [scan, String.toList_ofList, publicPart_text s items tail hmarker htail,
    stripComments_text, definitions_source, tags_definitions,
    types_definitions hdistinct, Text.distinctBy_of_nodup hkeys, hpublic]

/-- A tagged typedef, a comment with a definition in it, a forward declaration and a
union with a nested body. -/
def sample : List Item :=
  [.typedef .struct (some ⟨"nk_tag".toList, by decide⟩)
      (.field ⟨" int a".toList, by decide⟩ (.done ⟨[' '], by decide⟩))
      ⟨"nk_color".toList, by decide⟩,
    .comment ⟨" struct nk_old {int a;}; // ".toList, by decide⟩,
    .forward .struct ⟨"nk_window".toList, by decide⟩,
    .tagged .union ⟨"nk_value".toList, by decide⟩
      (.nested ⟨"\n  ".toList, by decide⟩ .struct
        (.field ⟨"float f".toList, by decide⟩ (.done ⟨[], by decide⟩))
        ⟨"part".toList, by decide⟩ (.done ⟨['\n'], by decide⟩))]

/-- The comment and the forward declaration define nothing, and neither does what the marker
hides. -/
theorem scan_sample :
    ((types sample).flatMap HeaderType.spellings).Nodup ∧
      scan .default (String.ofList
          (text sample ++ "#ifdef NK_IMPLEMENTATION\nstruct nk_hidden {int a;};".toList)) =
        [⟨⟨.typedef, "nk_color"⟩, some "struct nk_tag"⟩, ⟨⟨.union, "nk_value"⟩, none⟩] := by
  have hdistinct : ((types sample).flatMap HeaderType.spellings).Nodup := by decide
  have hmarker : ∀ mark, LintSettings.default.implementationMarker = some mark →
      '\n' ∉ mark.toList ∧ ¬mark.toList <:+: text sample := by
    rintro mark ⟨⟩
    decide +kernel
  have htail : Hidden .default
      "#ifdef NK_IMPLEMENTATION\nstruct nk_hidden {int a;};".toList :=
    Or.inr ⟨_, "\nstruct nk_hidden {int a;};".toList, rfl, rfl⟩
  refine ⟨hdistinct, ?_⟩
  rw [scan_text .default sample _ hdistinct hmarker htail]
  decide +kernel

end LayoutGuard.Header
