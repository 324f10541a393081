import LayoutGuard.Proofs.Header.WellFormed
import LayoutGuard.Proofs.Header.PlainHeader

/-!
The expansion of a header: every definition of a macro is taken out, and every invocation
becomes a plain definition of the type with the pasted name. A header is scanned like its
expansion, as long as no macro has a line continued between the keyword and the brace;
the invocations of such a macro are lost, although C expands them as well.
-/

namespace LayoutGuard.Header

theorem all_isBlank_nil : ([] : List Char).all Text.isBlank = true := rfl

theorem all_isBlank_space : [' '].all Text.isBlank = true := by decide

theorem all_isBlank_feed : ['\n'].all Text.isBlank = true := by decide

/-- A plain definition in the place of an invocation, or nothing where no template is
recognised. The fields are those of the macro's body with the arguments put in. -/
def Declaration.expand? (fields : Use → Fields) : Declaration → Option Declaration
  | invocation use _ _ =>
    if use.stamp.body.Straight then
      some (.defined use.stamp.body.kind ⟨⟨[' '], all_isBlank_space⟩, by decide⟩ use.name
        ⟨[' '], all_isBlank_space⟩ (fields use) ⟨[], all_isBlank_nil⟩)
    else none
  | d => some d

def Line.expand? (fields : Use → Fields) : Line → Option Line
  | stamp _ => none
  | declarations lead ds =>
    some (.declarations lead (ds.filterMap fun d => (d.1.expand? fields).map fun e => (e, d.2)))

theorem Declaration.use?_of_expand? {fields : Use → Fields} {d e : Declaration}
    (h : d.expand? fields = some e) : e.use? = none := by
  cases d with
  | defined => cases h; rfl
  | forward => cases h; rfl
  | invocation use space close =>
    rw [Declaration.expand?] at h
    split at h
    · cases h
      rfl
    · cases h

/-- A declaration and its expansion define the same type, if any. -/
theorem Declaration.bind_type?_expand? (fields : Use → Fields) (d : Declaration) :
    (d.expand? fields).bind Declaration.type? = d.type? := by
  cases d with
  | defined => rfl
  | forward => rfl
  | invocation use space close =>
    rw [Declaration.expand?, Declaration.type?]
    split <;> rfl

theorem Line.content_of_expand? {fields : Use → Fields} {l l' : Line}
    (h : l.expand? fields = some l') :
    l'.content = l.content.filterMap (Declaration.expand? fields) := by
  cases l with
  | stamp m => cases h
  | declarations lead ds =>
    cases h
    rw [Line.content, Line.content, List.map_filterMap, List.filterMap_map]
    refine List.filterMap_congr fun d _ => ?_
    rw [Option.map_map, Function.comp_apply]
    exact Option.map_id'

theorem Line.stamp?_of_expand? {fields : Use → Fields} {l l' : Line}
    (h : l.expand? fields = some l') : l'.stamp? = none := by
  cases l with
  | stamp m => cases h
  | declarations lead ds =>
    cases h
    rfl

/-- Expanding line by line expands the declarations of the header in their order. -/
theorem content_expand (fields : Use → Fields) (lines : List Line) :
    (lines.filterMap (Line.expand? fields)).flatMap Line.content =
      (lines.flatMap Line.content).filterMap (Declaration.expand? fields) := by
  induction lines with
  | nil => rfl
  | cons l lines ih =>
    rw [List.flatMap_cons, List.filterMap_append, ← ih]
    cases hexpand : l.expand? fields with
    | none =>
      have hcontent : l.content = [] := by
        cases l with
        | stamp m => rfl
        | declarations lead ds => cases hexpand
      rw [List.filterMap_cons_none hexpand, hcontent]
      rfl
    | some l' =>
      rw [List.filterMap_cons_some hexpand, List.flatMap_cons, Line.content_of_expand? hexpand]

theorem stamps_expand (fields : Use → Fields) (lines : List Line) :
    (lines.filterMap (Line.expand? fields)).filterMap Line.stamp? = [] := by
  rw [List.filterMap_eq_nil_iff]
  intro l' hl'
  obtain ⟨l, -, hexpand⟩ := List.mem_filterMap.mp hl'
  exact Line.stamp?_of_expand? hexpand

namespace PlainHeader

variable (h : PlainHeader) (fields : Use → Fields)

/-- The header without its macros, and with plain definitions for their invocations. -/
def expanded : PlainHeader where
  lines := h.lines.filterMap (Line.expand? fields)
  distinct := by
    rw [stamps_expand]
    exact List.nodup_nil
  declared d hd use huse := by
    rw [content_expand] at hd
    obtain ⟨e, -, hexpand⟩ := List.mem_filterMap.mp hd
    rw [Declaration.use?_of_expand? hexpand] at huse
    cases huse

/-- A header and its expansion define the same types in the same order. -/
theorem types_expanded : (h.expanded fields).types = h.types := by
  rw [types, declarations, expanded, content_expand, List.filterMap_filterMap, types]
  refine List.filterMap_congr fun d _ => ?_
  rw [← d.bind_type?_expand? fields, Option.map_bind]
  rfl

/-- A scan finds the types that a header defines and the settings let through, and it finds
the same in the expansion of the header. A marker that is not in the header does not matter
for this, unless the expansion brings it about. -/
theorem scan_expanded (s : LintSettings)
    (hmarker : ∀ mark, s.implementationMarker = some mark → ¬mark.toList <:+: h.text) :
    scan s (String.ofList h.text) =
        Text.distinctBy HeaderType.spelling (h.types.filter fun t => decide (Shown s t)) ∧
      scan s (String.ofList h.text) =
        scan { s with implementationMarker := none } (String.ofList (h.expanded fields).text) ∧
      ((∀ mark, s.implementationMarker = some mark →
          ¬mark.toList <:+: (h.expanded fields).text) →
        scan s (String.ofList h.text) = scan s (String.ofList (h.expanded fields).text)) := by
  have hunmarked : ∀ mark : String, none = some mark →
      ¬mark.toList <:+: (h.expanded fields).text := by
    rintro mark ⟨⟩
  have hpublic : isPublic { s with implementationMarker := none } = isPublic s := rfl
  refine ⟨?_, ?_, fun hmarker' => ?_⟩
  · rw [h.scan_eq s hmarker, funext (isPublic_eq s)]
  · rw [h.scan_eq s hmarker, (h.expanded fields).scan_eq _ hunmarked, types_expanded, hpublic]
  · rw [h.scan_eq s hmarker, (h.expanded fields).scan_eq s hmarker', types_expanded]

end PlainHeader

/-- A macro for stacks with its fields on continued lines. -/
def stackStamp : Stamp where
  name := ⟨"NK_STACK".toList, by decide⟩
  parameters :=
    [⟨⟨[], all_isBlank_nil⟩, ⟨"type".toList, by decide⟩, ⟨[], all_isBlank_nil⟩⟩,
      ⟨⟨[' '], all_isBlank_space⟩, ⟨"size".toList, by decide⟩, ⟨[], all_isBlank_nil⟩⟩]
  body :=
    { lead := ⟨" \\\n  ".toList, by decide⟩
      kind := .struct
      gap := ⟨[' '], all_isBlank_space⟩
      gap_ne_nil := by decide
      name := ⟨⟨"nk_stack_".toList, by decide⟩,
        [⟨"type".toList, by decide, by decide⟩, ⟨"_entry".toList, by decide, by decide⟩], by decide⟩
      space := ⟨[' '], all_isBlank_space⟩
      fields := "\\\n  type##_t items[size];\\\n".toList
      all_inner := by decide }
  one_line := by decide

theorem isName_value : Text.isName "nk_value".toList = true := by decide

def stackHeader : PlainHeader where
  lines :=
    [.stamp stackStamp,
      .declarations ⟨['\n'], all_isBlank_feed⟩
        [(.defined .union ⟨⟨[' '], all_isBlank_space⟩, by decide⟩ ⟨"nk_value".toList, isName_value⟩
            ⟨[], all_isBlank_nil⟩ ⟨"int i; float f;".toList, by decide⟩ ⟨[], all_isBlank_nil⟩,
          ⟨['\n'], all_isBlank_feed⟩)],
      .declarations ⟨[], all_isBlank_nil⟩
        [(.invocation ⟨stackStamp,
            [⟨"float".toList, by decide⟩, ⟨" 8".toList, by decide⟩], by decide, by decide⟩
          ⟨[], all_isBlank_nil⟩ ⟨[], all_isBlank_nil⟩, ⟨['\n'], all_isBlank_feed⟩)]]
  distinct := by decide
  declared := by
    simp [Line.content, Line.stamp?, Declaration.use?]

/-- A type that two macro pieces and an argument make up, behind one that is written out. -/
theorem scan_stackHeader :
    (∀ mark, LintSettings.default.implementationMarker = some mark →
        ¬mark.toList <:+: stackHeader.text) ∧
      scan .default (String.ofList stackHeader.text) =
        [⟨⟨.union, "nk_value"⟩, none⟩, ⟨⟨.struct, "nk_stack_float_entry"⟩, none⟩] := by
  have hmarker : ∀ mark, LintSettings.default.implementationMarker = some mark →
      ¬mark.toList <:+: stackHeader.text := by
    rintro mark ⟨⟩
    decide +kernel
  refine ⟨hmarker, ?_⟩
  rw [(stackHeader.scan_expanded (fun _ => ⟨"float items[8];".toList, by decide⟩)
    .default hmarker).2.1]
  decide +kernel

/-- A macro whose head is continued on a second line before the brace. -/
def bentStamp : Stamp where
  name := ⟨"M".toList, by decide⟩
  parameters := [⟨⟨[], all_isBlank_nil⟩, ⟨"n".toList, by decide⟩, ⟨[], all_isBlank_nil⟩⟩]
  body :=
    { lead := ⟨[' '], all_isBlank_space⟩
      kind := .struct
      gap := ⟨[' '], all_isBlank_space⟩
      gap_ne_nil := by decide
      name := ⟨⟨"nk_".toList, by decide⟩, [⟨"n".toList, by decide, by decide⟩], by decide⟩
      space := ⟨" \\\n".toList, by decide⟩
      fields := "int x;".toList
      all_inner := by decide }
  one_line := by decide

def bentHeader : PlainHeader where
  lines :=
    [.stamp bentStamp,
      .declarations ⟨[], all_isBlank_nil⟩
        [(.invocation ⟨bentStamp, [⟨"a".toList, by decide⟩], by decide, by decide⟩
          ⟨[], all_isBlank_nil⟩ ⟨[], all_isBlank_nil⟩, ⟨['\n'], all_isBlank_feed⟩)]]
  distinct := by decide
  declared := by
    simp [Line.content, Line.stamp?, Declaration.use?]

/-- The header that defines `struct nk_a` through a continued head and the header that
defines it in plain text are not scanned alike. -/
theorem bentHeader_not_scanned_alike :
    bentHeader.text = "#define M(n) struct nk_##n \\\n\x7bint x;\x7d\nM(a);\n".toList ∧
      scan .default (String.ofList bentHeader.text) ≠
        scan .default "struct nk_a \x7bint x;\x7d;\n" := by
  constructor
  · decide +kernel
  · decide +kernel

end LayoutGuard.Header
