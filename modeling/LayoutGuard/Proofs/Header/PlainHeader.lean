import LayoutGuard.Proofs.Header.Stamp

/-!
Headers of plain definitions, forward declarations, macros that stamp out types, and
invocations of these macros, with any white space between their words. A scan finds the
types of the definitions and of the invocations in their order. It passes over the
invocations of a macro in which a line is continued between the keyword and the brace.
-/

namespace LayoutGuard.Header

open Text (isBlank isWordChar)

/-! Declarations -/

/-- White space between two words. -/
structure Break extends Gap where
  ne_nil : text ≠ []

/-- The fields of a plain definition. -/
structure Fields where
  text : List Char
  all_plain : text.all (fun c => isInner c && c != '#') = true

inductive Declaration
  | defined (kind : Composite) (gap : Break) (name : Identifier) (space : Gap) (fields : Fields)
      (close : Gap)
  | forward (kind : Composite) (gap : Break) (name : Identifier) (close : Gap)
  | invocation (use : Use) (space close : Gap)

namespace Declaration

def text : Declaration → List Char
  | defined kind gap name space fields close =>
    kind.keyword ++ (gap.text ++ (name.text ++ (space.text ++ '\x7b' :: (fields.text ++
      '\x7d' :: (close.text ++ [';'])))))
  | forward kind gap name close =>
    kind.keyword ++ (gap.text ++ (name.text ++ (close.text ++ [';'])))
  | invocation use space close =>
    use.stamp.name.text ++ (space.text ++ '(' :: (use.argumentList ++ ')' :: (close.text ++ [';'])))

def type? : Declaration → Option CType
  | defined kind _ name _ _ _ => some (kind.type name)
  | forward .. => none
  | invocation use _ _ => if use.stamp.body.Straight then some use.type else none

/-- The definition that a scan finds in a declaration. -/
def found? : Declaration → Option Definition
  | defined kind _ name _ _ _ => some (.tagged (kind.type name))
  | forward .. => none
  | invocation use _ _ => if use.stamp.body.Straight then some (.stamped use.type) else none

def use? : Declaration → Option Use
  | invocation use _ _ => some use
  | _ => none

end Declaration

theorem Fields.not_mem (f : Fields) {c : Char} (hc : (isInner c && c != '#') = false) :
    c ∉ f.text :=
  Text.not_mem_of_all f.all_plain hc

theorem Use.argumentList_not_mem (u : Use) {c : Char} (hcomma : c ≠ ',')
    (hc : (isInner c && c != ',' && c != '#') = false) : c ∉ u.argumentList := by
  intro hmem
  rcases exists_mem_of_mem_intercalate hmem with h | ⟨t, ht, hin⟩
  · exact hcomma (List.mem_singleton.mp h)
  · obtain ⟨a, -, rfl⟩ := List.mem_map.mp ht
    exact a.not_mem hc hin

theorem unsigned_of_not_mem {u : List Char} (hslash : '/' ∉ u) (hsign : '#' ∉ u) :
    ∀ c ∈ u, Unsigned c :=
  fun _ hc => ⟨fun h => hslash (h ▸ hc), fun h => hsign (h ▸ hc)⟩

theorem Fields.unsigned (f : Fields) : ∀ c ∈ f.text, Unsigned c :=
  unsigned_of_not_mem (f.not_mem (by decide)) (f.not_mem (by decide))

theorem Use.unsigned_argumentList (u : Use) : ∀ c ∈ u.argumentList, Unsigned c :=
  unsigned_of_not_mem (u.argumentList_not_mem (by decide) (by decide))
    (u.argumentList_not_mem (by decide) (by decide))

/-- No declaration holds a comment or a macro definition. -/
theorem Declaration.unsigned (d : Declaration) : ∀ c ∈ d.text, Unsigned c := by
  cases d with
  | defined kind gap name space fields close =>
    simp only [Declaration.text, List.forall_mem_append, List.forall_mem_cons]
    exact ⟨kind.unsigned_keyword, gap.unsigned, name.unsigned, space.unsigned, by decide,
      fields.unsigned, by decide, close.unsigned, by decide, List.forall_mem_nil _⟩
  | forward kind gap name close =>
    simp only [Declaration.text, List.forall_mem_append, List.forall_mem_cons]
    exact ⟨kind.unsigned_keyword, gap.unsigned, name.unsigned, close.unsigned, by decide,
      List.forall_mem_nil _⟩
  | invocation use space close =>
    simp only [Declaration.text, List.forall_mem_append, List.forall_mem_cons]
    exact ⟨use.stamp.name.unsigned, space.unsigned, by decide, use.unsigned_argumentList,
      by decide, close.unsigned, by decide, List.forall_mem_nil _⟩

/-! What is found in a declaration -/

section Found

variable {ms : List Macro}

theorem found_close (close : Gap) (rest : List Char) :
    found ms none (close.text ++ ';' :: rest) = found ms none rest := by
  rw [found_gap fun c hc => Text.isWordChar_of_isBlank (close.blank c hc), found_sign (by decide)]

/-- A definition that is written out gives one definition. -/
theorem found_defined (kind : Composite) (gap : Break) (name : Identifier) (space : Gap)
    (fields : Fields) (rest : List Char) :
    found ms none (kind.keyword ++ (gap.text ++ (name.text ++ (space.text ++ '\x7b' ::
        (fields.text ++ '\x7d' :: rest))))) =
      .tagged (kind.type name) :: found ms none rest := by
  have hread : definition? ms (none, kind.keyword ++ (gap.text ++ (name.text ++ (space.text ++
      '\x7b' :: (fields.text ++ '\x7d' :: rest))))) = some (.tagged (kind.type name)) :=
    definition?_spaced rfl ms kind name.tag gap.ne_nil gap.blank space.blank _
  rw [found_word_break kind.keyword_ne_nil kind.isWordChar_keyword gap.ne_nil gap.blank, hread,
    found_last_word name.ne_nil name.isWordChar space.blank, found_quiet (by decide)
      (fields.not_mem (by decide)) (fields.not_mem (by decide)) (by decide) (by decide)]
  rfl

/-- A forward declaration gives none. -/
theorem found_forward (kind : Composite) (gap : Break) (name : Identifier) (close : Gap)
    (rest : List Char) :
    found ms none (kind.keyword ++ (gap.text ++ (name.text ++ (close.text ++ ';' :: rest)))) =
      found ms none rest := by
  have hplain : ∀ c ∈ kind.keyword ++ (gap.text ++ (name.text ++ close.text)),
      (isWordChar c || isBlank c) = true := by
    simp only [List.forall_mem_append]
    exact ⟨plain_of_word kind.isWordChar_keyword, plain_of_blank gap.blank,
      plain_of_word name.isWordChar, plain_of_blank close.blank⟩
  have hquiet : found ms none (kind.keyword ++ (gap.text ++ (name.text ++ close.text)) ++
      ';' :: rest) = found ms none rest :=
    found_quiet (by decide) (not_mem_of_plain hplain (by decide))
      (not_mem_of_plain hplain (by decide)) (by decide) (by decide) rest
  simpa only [List.append_assoc] using hquiet

/-- An invocation is read with the last template under the macro's name. -/
theorem stamped?_use (use : Use) (space : Gap) (rest : List Char) :
    stamped? ms (use.stamp.name.text ++ (space.text ++ '(' :: (use.argumentList ++ ')' :: rest))) =
      (findTemplate? ms use.stamp.name.text).bind fun t =>
        t.expand? (splitArguments use.argumentList) := by
  have hname (tail : List Char) :
      Text.name? (use.stamp.name.text ++ (space.text ++ '(' :: tail)) =
        some (use.stamp.name.text, space.text ++ '(' :: tail) := by
    have hsign : isWordChar '(' = false := by decide
    obtain ⟨d, tail', htail, hd⟩ := Text.exists_sign
      (fun c hc => Text.isWordChar_of_isBlank (space.blank c hc)) hsign tail
    rw [htail, Text.name?_append use.stamp.name.valid hd]
  have hspace (tail : List Char) :
      Text.skipBlanks (space.text ++ '(' :: tail) = '(' :: tail := by
    rw [Text.skipBlanks_gap space.blank, Text.skipBlanks_of_not_blank (by decide)]
  have hinner : ∀ c ∈ use.argumentList, (c != '(' && c != ')') = true := by
    intro c hc
    rw [Bool.and_eq_true, bne_iff_ne, bne_iff_ne]
    constructor
    · rintro rfl
      exact use.argumentList_not_mem (by decide) (by decide) hc
    · rintro rfl
      exact use.argumentList_not_mem (by decide) (by decide) hc
  have hclose : (')' != '(' && ')' != ')') = false := rfl
  simp only [stamped?, hname, hspace, Text.char?, if_true, Option.bind_eq_bind, Option.bind_some,
    Text.takeWhile_stop hinner hclose, Text.dropWhile_stop hinner hclose]
  rfl

/-- An invocation gives what the template of its macro expands to. -/
theorem found_invocation (use : Use) (space : Gap) (rest : List Char) :
    found ms none (use.stamp.name.text ++ (space.text ++ '(' ::
        (use.argumentList ++ ')' :: rest))) =
      (((findTemplate? ms use.stamp.name.text).bind fun t =>
        t.expand? (splitArguments use.argumentList)).map Definition.stamped).toList ++
          found ms none rest := by
  have hplain : ∀ c ∈ use.stamp.name.text ++ space.text, (isWordChar c || isBlank c) = true :=
    List.forall_mem_append.mpr
      ⟨plain_of_word use.stamp.name.isWordChar, plain_of_blank space.blank⟩
  have hedge (tail : List Char) :
      Text.atWordEdge none (use.stamp.name.text ++ tail) = true := by
    obtain ⟨c, cs, hcons⟩ := List.exists_cons_of_ne_nil use.stamp.name.ne_nil
    have hc := use.stamp.name.isWordChar c (by rw [hcons]; exact List.mem_cons_self)
    simp [Text.atWordEdge, hcons, hc]
  have hread (tail : List Char) :
      definition? ms (none, use.stamp.name.text ++ (space.text ++ '(' :: tail)) =
        (stamped? ms (use.stamp.name.text ++ (space.text ++ '(' :: tail))).map
          Definition.stamped := by
    have hedge' := hedge (space.text ++ '(' :: tail)
    rw [← List.append_assoc] at hedge' ⊢
    exact definition?_of_parenthesis (not_mem_of_plain hplain (by decide)) tail hedge'
  rw [found_word_sign use.stamp.name.ne_nil use.stamp.name.isWordChar space.blank (by decide),
    hread, stamped?_use, found_quiet (by decide) (use.argumentList_not_mem (by decide) (by decide))
      (use.argumentList_not_mem (by decide) (by decide)) (by decide) (by decide)]

/-- A scan over a declaration, with the macros that it needs. -/
theorem found_declaration (d : Declaration)
    (hstamp : ∀ use, d.use? = some use → findTemplate? ms use.stamp.name.text =
      if use.stamp.body.Straight then some use.stamp.template else none) (rest : List Char) :
    found ms none (d.text ++ rest) = d.found?.toList ++ found ms none rest := by
  cases d with
  | defined kind gap name space fields close =>
    simp only [Declaration.text, List.append_assoc, List.cons_append, List.nil_append]
    rw [found_defined, found_close]
    rfl
  | forward kind gap name close =>
    simp only [Declaration.text, List.append_assoc, List.cons_append, List.nil_append]
    exact found_forward kind gap name close rest
  | invocation use space close =>
    simp only [Declaration.text, List.append_assoc, List.cons_append, List.nil_append]
    rw [found_invocation, found_close, hstamp use rfl, Declaration.found?]
    split
    · rw [Option.bind_some, use.expand?_eq]
      rfl
    · rfl

end Found

/-! Lines -/

/-- A line of a header: the definition of a macro, or any declarations. A declaration has
white space behind it, in which further lines may begin. -/
inductive Line
  | stamp (m : Stamp)
  | declarations (lead : Gap) (ds : List (Declaration × Gap))

namespace Line

def source : Line → List Char
  | stamp _ => []
  | declarations lead ds => lead.text ++ ds.flatMap fun d => d.1.text ++ d.2.text

def text : Line → List Char
  | stamp m => m.text
  | line => line.source

def stamp? : Line → Option Stamp
  | stamp m => some m
  | _ => none

def content : Line → List Declaration
  | stamp _ => []
  | declarations _ ds => ds.map Prod.fst

theorem unsigned_source (l : Line) : ∀ c ∈ l.source, Unsigned c := by
  cases l with
  | stamp m => exact List.forall_mem_nil _
  | declarations lead ds =>
    refine List.forall_mem_append.mpr ⟨lead.unsigned, fun c hc => ?_⟩
    obtain ⟨d, -, hd⟩ := List.mem_flatMap.mp hc
    exact List.forall_mem_append.mpr ⟨d.1.unsigned, d.2.unsigned⟩ c hd

/-- A line gives what its declarations define, in order. -/
theorem found_source {ms : List Macro} (l : Line)
    (hstamp : ∀ d ∈ l.content, ∀ use, d.use? = some use →
      findTemplate? ms use.stamp.name.text =
        if use.stamp.body.Straight then some use.stamp.template else none) (rest : List Char) :
    found ms none (l.source ++ rest) =
      l.content.filterMap Declaration.found? ++ found ms none rest := by
  have hgap (g : Gap) : ∀ c ∈ g.text, isWordChar c = false := fun c hc =>
    Text.isWordChar_of_isBlank (g.blank c hc)
  cases l with
  | stamp m => rfl
  | declarations lead ds =>
    rw [source, List.append_assoc, found_gap (hgap lead), content]
    induction ds with
    | nil => rfl
    | cons d ds ih =>
      have hhere := found_declaration d.1 (hstamp d.1 List.mem_cons_self)
      have hrest := ih fun e he => hstamp e (List.mem_cons_of_mem d.1 he)
      rw [List.flatMap_cons, List.append_assoc, List.append_assoc, hhere, found_gap (hgap d.2),
        hrest, List.map_cons, List.filterMap_cons]
      cases d.1.found? <;> rfl

end Line

theorem PastedBody.slash_not_mem (b : PastedBody) : '/' ∉ b.text := by
  have hjoint (j : Joint) : '/' ∉ j.text := Text.not_mem_of_all j.all_joint (by decide)
  have hname : '/' ∉ b.name.text := fun h => absurd (b.name.isPasteChar _ h) (by decide)
  simp only [PastedBody.text, PastedBody.head, List.mem_append, List.mem_cons, not_or]
  exact ⟨⟨hjoint b.lead, Header.slash_not_mem b.kind.unsigned_keyword, hjoint b.gap, hname,
    hjoint b.space⟩, by decide, Text.not_mem_of_all b.all_inner (by decide), by decide,
    List.not_mem_nil⟩

theorem Stamp.slash_not_mem (m : Stamp) : '/' ∉ m.text := by
  have hword : '/' ∉ defineWord := by decide
  simp only [Stamp.text, List.mem_append, List.mem_cons, not_or]
  exact ⟨hword, Header.slash_not_mem m.name.unsigned, by decide,
    m.parameterList_not_mem (by decide) (by decide) (by decide), by decide, m.body.slash_not_mem⟩

theorem Line.slash_not_mem (l : Line) : '/' ∉ l.text := by
  cases l with
  | stamp m => exact m.slash_not_mem
  | declarations lead ds =>
    exact Header.slash_not_mem (Line.unsigned_source (.declarations lead ds))

def joined (texts : List (List Char)) : List Char :=
  ['\n'].intercalate texts

theorem joined_singleton (t : List Char) : joined [t] = t :=
  List.intercalate_singleton

theorem joined_cons_cons (t u : List Char) (texts : List (List Char)) :
    joined (t :: u :: texts) = t ++ '\n' :: joined (u :: texts) := by
  rw [joined, List.intercalate_cons_cons, List.append_assoc]
  rfl

/-- The definitions of macros are taken out of their lines, and all else stays. -/
theorem splitMacros_lines (lines : List Line) :
    splitMacros true (joined (lines.map Line.text)) =
      ((lines.filterMap Line.stamp?).map Stamp.toMacro, joined (lines.map Line.source)) := by
  induction lines with
  | nil => exact splitMacros_eq_self List.not_mem_nil true
  | cons l lines ih =>
    cases lines with
    | nil =>
      rw [List.map_singleton, List.map_singleton, joined_singleton, joined_singleton]
      cases l with
      | stamp m =>
        have hread : macro? (m.text ++ []) = some (m.toMacro, []) := m.macro?_text (Or.inl rfl)
        rw [List.append_nil] at hread
        rw [Line.text, splitMacros_some hread, splitMacros_eq_self List.not_mem_nil]
        rfl
      | declarations lead ds =>
        exact splitMacros_eq_self (sign_not_mem (Line.unsigned_source (.declarations lead ds))) true
    | cons l' lines =>
      have htext : joined ((l :: l' :: lines).map Line.text) =
          l.text ++ '\n' :: joined ((l' :: lines).map Line.text) := joined_cons_cons _ _ _
      have hsource : joined ((l :: l' :: lines).map Line.source) =
          l.source ++ '\n' :: joined ((l' :: lines).map Line.source) := joined_cons_cons _ _ _
      rw [htext, hsource]
      cases l with
      | stamp m =>
        have hfeed := splitMacros_quiet (u := []) (Or.inl List.not_mem_nil) false
          (joined ((l' :: lines).map Line.text))
        rw [List.nil_append] at hfeed
        -- The definition is read up to its line feed, behind which a line begins again.
        rw [Line.text, splitMacros_some (m.macro?_text (Or.inr ⟨_, rfl⟩)), hfeed, ih]
        rfl
      | declarations lead ds =>
        have hsign := sign_not_mem (Line.unsigned_source (.declarations lead ds))
        rw [show (Line.declarations lead ds).text = (Line.declarations lead ds).source from rfl,
          splitMacros_quiet (Or.inl hsign), ih]
        rfl

/-- The definitions in all lines, where each invocation finds its own macro. -/
theorem found_lines {ms : List Macro} {lines : List Line}
    (hstamp : ∀ d ∈ lines.flatMap Line.content, ∀ use, d.use? = some use →
      findTemplate? ms use.stamp.name.text =
        if use.stamp.body.Straight then some use.stamp.template else none) :
    found ms none (joined (lines.map Line.source)) =
      (lines.flatMap Line.content).filterMap Declaration.found? := by
  induction lines with
  | nil => rfl
  | cons l lines ih =>
    have hhere (rest : List Char) : found ms none (l.source ++ rest) =
        l.content.filterMap Declaration.found? ++ found ms none rest :=
      l.found_source (fun d hd => hstamp d (List.mem_flatMap.mpr ⟨l, List.mem_cons_self, hd⟩)) rest
    have hrest := ih fun d hd => by
      obtain ⟨l', hl', hin⟩ := List.mem_flatMap.mp hd
      exact hstamp d (List.mem_flatMap.mpr ⟨l', List.mem_cons_of_mem l hl', hin⟩)
    rw [List.flatMap_cons, List.filterMap_append, ← hrest]
    cases lines with
    | nil =>
      have hend := hhere []
      rw [List.append_nil] at hend
      rw [List.map_singleton, joined_singleton, hend]
      rfl
    | cons l' lines =>
      have hsource : joined ((l :: l' :: lines).map Line.source) =
          l.source ++ '\n' :: joined ((l' :: lines).map Line.source) := joined_cons_cons _ _ _
      rw [hsource, hhere, found_sign (by decide)]

/-! Headers -/

/-- A header of plain definitions, forward declarations, macros that stamp out types, and
invocations of the macros that it defines. -/
structure PlainHeader where
  lines : List Line
  distinct : ((lines.filterMap Line.stamp?).map fun m => m.name.text).Nodup
  declared : ∀ d ∈ lines.flatMap Line.content, ∀ use, d.use? = some use →
    use.stamp ∈ lines.filterMap Line.stamp?

namespace PlainHeader

def text (h : PlainHeader) : List Char :=
  joined (h.lines.map Line.text)

def declarations (h : PlainHeader) : List Declaration :=
  h.lines.flatMap Line.content

theorem slash_not_mem_text (h : PlainHeader) : '/' ∉ h.text := by
  intro hmem
  rcases exists_mem_of_mem_intercalate hmem with hfeed | ⟨t, ht, hin⟩
  · exact absurd hfeed (by decide)
  · obtain ⟨l, -, rfl⟩ := List.mem_map.mp ht
    exact l.slash_not_mem hin

/-- The definitions of a header are those of its declarations, in order. -/
theorem definitions_text (h : PlainHeader) :
    definitions h.text = h.declarations.filterMap Declaration.found? := by
  rw [definitions, text, splitMacros_lines]
  refine found_lines fun d hd use huse => ?_
  have hdistinct : (((h.lines.filterMap Line.stamp?).map Stamp.toMacro).map Macro.name).Nodup := by
    rw [List.map_map]
    exact h.distinct
  rw [← use.stamp.template?_toMacro]
  exact findTemplate?_of_mem hdistinct (List.mem_map_of_mem (h.declared d hd use huse))

/-- The types that a header defines, each where its definition or invocation stands. -/
def types (h : PlainHeader) : List HeaderType :=
  h.declarations.filterMap fun d => d.type?.map fun t => ⟨t, none⟩

theorem tags_definitions (h : PlainHeader) :
    (definitions h.text).filterMap Definition.tag? = [] := by
  rw [h.definitions_text, List.filterMap_filterMap, List.filterMap_eq_nil_iff]
  rintro (_ | _ | ⟨use, _, _⟩) -
  · rfl
  · rfl
  · rw [Declaration.found?]
    split <;> rfl

/-- The definitions give the types of the header. -/
theorem types_definitions (h : PlainHeader) :
    (definitions h.text).filterMap (Definition.type? []) = h.types := by
  rw [h.definitions_text, List.filterMap_filterMap, types]
  refine List.filterMap_congr ?_
  rintro (_ | _ | ⟨use, _, _⟩) -
  · rfl
  · rfl
  · rw [Declaration.found?, Declaration.type?]
    split <;> rfl

/-- A scan finds the types of a header that the settings let through, each spelling once. -/
theorem scan_eq (h : PlainHeader) (s : LintSettings)
    (hmarker : ∀ mark, s.implementationMarker = some mark → ¬mark.toList <:+: h.text) :
    scan s (String.ofList h.text) =
      Text.distinctBy HeaderType.spelling (h.types.filter (isPublic s)) := by
  rw [scan, String.toList_ofList, publicPart_eq_self hmarker,
    stripComments_eq_self h.slash_not_mem_text, h.tags_definitions, h.types_definitions]

end PlainHeader

end LayoutGuard.Header
