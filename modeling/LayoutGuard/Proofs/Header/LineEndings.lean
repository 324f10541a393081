import LayoutGuard.Proofs.Header.PastedBody
import LayoutGuard.Proofs.Text.LineEndings

/-!
Headers with line feeds and headers with carriage returns before them. Every pass of a
scan keeps the two texts alike: comments and macro definitions reach equally far in both.
A line comment or a macro definition swallows the carriage return of its last line, so the
texts agree in their lines but not in how each of them ends; what is found is the same.
-/

namespace LayoutGuard.Header

open Text (WithReturns isBlank squeeze)

variable {cs ds : List Char}

/-! Comments -/

theorem rel_afterClose (h : WithReturns cs ds) :
    Option.Rel WithReturns (afterClose cs) (afterClose ds) := by
  fun_induction afterClose cs generalizing ds with
  | case1 =>
    cases h
    exact .none
  | case2 cs =>
    cases h with
    | char _ h =>
      cases h with
      | char _ h => exact .some h
  | case3 c cs hother ih =>
    cases h with
    | @char _ _ ds _ h =>
      have hnext : ∀ tail, c = '*' → ds = '/' :: tail → False := by
        rintro tail rfl rfl
        cases h
        exact hother _ rfl rfl
      rw [afterClose.eq_3 c ds hnext]
      exact ih h
    | @feed _ ds h =>
      have hskip : afterClose ('\r' :: '\n' :: ds) = afterClose ds := rfl
      rw [hskip]
      exact ih h

theorem WithReturns.not_open_prefix (h : WithReturns cs ds) (hopen : ¬['/', '*'] <+: cs) :
    ¬['/', '*'] <+: ds := by
  rintro ⟨tail, rfl⟩
  cases h with
  | char _ h =>
    cases h with
    | @char _ cs _ _ h => exact hopen ⟨cs, rfl⟩

/-- Removing block comments keeps texts alike but for their line endings. -/
theorem withReturns_stripBlocks (h : WithReturns cs ds) :
    WithReturns (stripBlocks cs) (stripBlocks ds) := by
  fun_induction stripBlocks cs generalizing ds with
  | case1 =>
    cases h
    rw [stripBlocks]
    exact .nil
  | case2 cs after hafter ih =>
    cases h with
    | char _ h =>
      cases h with
      | @char _ _ ds _ h =>
        have hclose := rel_afterClose h
        rw [hafter] at hclose
        obtain ⟨rest, hds, hrest⟩ := exists_of_rel hclose
        rw [stripBlocks_open hds]
        exact .char (by decide) (ih hrest)
  | case3 cs hafter =>
    have hds := h
    cases h with
    | char _ h =>
      cases h with
      | @char _ _ ds _ h =>
        have hclose := isSome_eq_of_rel (rel_afterClose h)
        rw [hafter, eq_comm, Option.isSome_none, Option.isSome_eq_false_iff,
          Option.isNone_iff_eq_none] at hclose
        rw [stripBlocks_unclosed hclose]
        exact hds
  | case4 c cs hother ih =>
    have hopen : ¬['/', '*'] <+: c :: cs := by
      rintro ⟨tail, htail⟩
      cases htail
      exact hother tail rfl rfl
    have hopen' := WithReturns.not_open_prefix h hopen
    cases h with
    | char plain h =>
      rw [stripBlocks_cons hopen']
      exact .char plain (ih h)
    | @feed _ ds h =>
      have hfeed : ¬['/', '*'] <+: '\n' :: ds := fun hpre =>
        absurd (List.cons_prefix_cons.mp hpre).1 (by decide)
      rw [stripBlocks_cons hopen', stripBlocks_cons hfeed]
      exact .feed (ih h)

/-- Removing line comments keeps texts alike but for their line endings. -/
theorem withReturns_stripLinesFrom (h : WithReturns cs ds) (inside : Bool) :
    WithReturns (stripLinesFrom inside cs) (stripLinesFrom inside ds) := by
  induction h generalizing inside with
  | nil => exact .nil
  | @char c cs ds plain h ih =>
    have hhead : (cs.head? = some '/') ↔ (ds.head? = some '/') := by
      cases h <;> simp
    rw [stripLinesFrom, stripLinesFrom]
    simp only [hhead]
    split
    · split
      · exact .char plain (ih false)
      · exact ih true
    · split
      · exact ih true
      · exact .char plain (ih false)
  | @feed cs ds h ih =>
    cases inside with
    | true => exact .char (by decide) (ih false)
    | false => exact .feed (ih false)

/-! The end of a macro's body -/

/-- The pieces of a pasted name that stands before a brace. -/
def pastedPieces? (cs : List Char) : Option (List (List Char)) := do
  guard (cs.head?.any Text.isNameStart)
  let name := cs.takeWhile isPasteChar
  guard (hasPaste name)
  let _ ← Text.char? '\x7b' (Text.skipBlanks (cs.dropWhile isPasteChar))
  return splitPaste name

theorem pastedHead?_eq (before : Option Char) (cs : List Char) :
    pastedHead? (before, cs) =
      if Text.atWordEdge before cs then
        (compositeKeyword? cs).bind fun r =>
          ((Text.blanks? r.2).bind pastedPieces?).map fun pieces => (r.1, pieces)
      else none := by
  rw [pastedHead?]
  cases Text.atWordEdge before cs with
  | false => rfl
  | true =>
    simp only [pastedPieces?, Option.bind_eq_bind, Option.map_bind, Function.comp_def]
    rfl

theorem pastedPieces?_append_space (hcs : cs ≠ []) :
    pastedPieces? (cs ++ [' ']) = pastedPieces? cs := by
  have hpaste : isPasteChar ' ' = false := by decide
  simp only [pastedPieces?, List.head?_append_of_ne_nil cs hcs,
    Text.takeWhile_append_stop cs hpaste, Text.dropWhile_append_stop cs hpaste,
    Text.char?_skipBlanks_append_space (show ' ' ≠ '\x7b' by decide), Option.bind_eq_bind,
    Option.bind_map, Function.comp_def]

theorem compositeKeyword?_append_space (cs : List Char) :
    compositeKeyword? (cs ++ [' ']) = (compositeKeyword? cs).map fun r => (r.1, r.2 ++ [' ']) := by
  rw [compositeKeyword?, compositeKeyword?, Text.literal?_append_stop (by decide),
    Text.literal?_append_stop (by decide)]
  cases Text.literal? "struct" cs with
  | some rest => rfl
  | none => cases Text.literal? "union" cs <;> rfl

theorem bind_blanks?_append_space (cs : List Char) :
    (Text.blanks? (cs ++ [' '])).bind pastedPieces? = (Text.blanks? cs).bind pastedPieces? := by
  cases cs with
  | nil => rfl
  | cons c cs =>
    rw [List.cons_append, Text.blanks?, Text.blanks?]
    split
    · rcases Text.skipBlanks_append_space cs with ⟨hcs, hcs'⟩ | ⟨hcs, hcs'⟩
      · rw [hcs, hcs']
      · rw [hcs', Option.bind_some, Option.bind_some, pastedPieces?_append_space hcs]
    · rfl

/-- A space at the end of a body is out of reach of a pasted name. -/
theorem pastedHead?_append_space (before : Option Char) (hcs : cs ≠ []) :
    pastedHead? (before, cs ++ [' ']) = pastedHead? (before, cs) := by
  have hedge : Text.atWordEdge before (cs ++ [' ']) = Text.atWordEdge before cs := by
    rw [Text.atWordEdge, Text.atWordEdge, List.head?_append_of_ne_nil cs hcs]
  rw [pastedHead?_eq, pastedHead?_eq, hedge, compositeKeyword?_append_space, Option.bind_map]
  simp only [Function.comp_def, bind_blanks?_append_space]

theorem filterMap_pastedHead?_append_space (before : Option Char) (cs : List Char) :
    (Text.places before (cs ++ [' '])).filterMap pastedHead? =
      (Text.places before cs).filterMap pastedHead? := by
  induction cs generalizing before with
  | nil => exact List.filterMap_cons_none (pastedHead?_of_not_word (by decide) [])
  | cons c cs ih =>
    rw [List.cons_append, Text.places, Text.places, List.filterMap_cons, List.filterMap_cons, ih,
      ← List.cons_append, pastedHead?_append_space before (List.cons_ne_nil c cs)]

def Macro.padded (m : Macro) : Macro :=
  { m with body := m.body ++ [' '] }

/-- A space behind the body of a macro does not matter to its template. -/
theorem template?_padded (m : Macro) : m.padded.template? = m.template? := by
  rw [Macro.template?, Macro.template?, Macro.padded, ← List.head?_filterMap,
    ← List.head?_filterMap, filterMap_pastedHead?_append_space]

theorem findTemplate?_padded (ms : List Macro) (name : List Char) :
    findTemplate? (ms.map Macro.padded) name = findTemplate? ms name := by
  rw [findTemplate?, findTemplate?, ← List.map_reverse, List.filterMap_map]
  congr 1
  refine List.filterMap_congr fun m _ => ?_
  rw [Function.comp_apply, template?_padded]
  rfl

/-- Spaces behind the bodies of macros matter to no definition. -/
theorem definition?_padded (ms : List Macro) :
    definition? (ms.map Macro.padded) = definition? ms := by
  funext place
  simp only [definition?, stamped?, findTemplate?_padded]

/-! Macro definitions -/

theorem WithReturns.not_continued_prefix {c : Char} (h : WithReturns cs ds)
    (hfeed : ¬['\\', '\n'] <+: c :: cs) :
    ¬['\\', '\n'] <+: c :: ds ∧ ¬['\\', '\r', '\n'] <+: c :: ds := by
  constructor
  · intro hpre
    obtain ⟨rfl, tail, rfl⟩ := List.cons_prefix_cons.mp hpre
    cases h with
    | @char _ cs _ _ h => exact hfeed ⟨cs, rfl⟩
  · intro hpre
    obtain ⟨rfl, tail, rfl⟩ := List.cons_prefix_cons.mp hpre
    cases h with
    | char plain h => exact plain rfl
    | @feed cs _ h => exact hfeed ⟨cs, rfl⟩

theorem logicalLine_return_feed (cs : List Char) :
    logicalLine ('\r' :: '\n' :: cs) = (['\r'], '\n' :: cs) := by
  have hopen {w : List Char} : ¬('\\' :: w <+: '\r' :: '\n' :: cs) := fun hpre =>
    absurd (List.cons_prefix_cons.mp hpre).1 (by decide)
  rw [logicalLine_cons (by decide) hopen hopen, logicalLine_feed]

/-- Both logical lines end at the same place, but one of them may keep the carriage return
of the line feed that ends it. -/
theorem withReturns_logicalLine (h : WithReturns cs ds) :
    squeeze ((logicalLine cs).1 ++ [' ']) = squeeze ((logicalLine ds).1 ++ [' ']) ∧
      WithReturns (logicalLine cs).2 (logicalLine ds).2 := by
  fun_induction logicalLine cs generalizing ds with
  | case1 =>
    cases h
    exact ⟨rfl, .nil⟩
  | case2 cs line rest heq ih =>
    rw [heq] at ih
    cases h with
    | char _ h =>
      cases h with
      | char _ h =>
        obtain ⟨hline, hrest⟩ := ih h
        exact ⟨Text.squeeze_append_congr ['\\', '\n'] hline, hrest⟩
      | @feed _ ds h =>
        obtain ⟨hline, hrest⟩ := ih h
        refine ⟨Text.squeeze_cons_congr '\\' ?_, hrest⟩
        exact (Text.squeeze_cons_congr '\n' hline).trans (Text.squeeze_return_feed _).symm
  | case3 cs line rest heq ih =>
    cases h with
    | char _ h =>
      cases h with
      | char plain h => exact absurd rfl plain
  | case4 cs =>
    cases h with
    | char plain h =>
      rw [logicalLine_feed]
      exact ⟨rfl, .char plain h⟩
    | feed h =>
      rw [logicalLine_return_feed]
      exact ⟨rfl, .char (by decide) h⟩
  | case5 c cs hfeed hreturn hc line rest heq ih =>
    rw [heq] at ih
    have hopen : ¬['\\', '\n'] <+: c :: cs := by
      rintro ⟨tail, htail⟩
      cases htail
      exact hfeed tail rfl rfl
    cases h with
    | char plain h =>
      obtain ⟨hopen', hopen''⟩ := WithReturns.not_continued_prefix h hopen
      obtain ⟨hline, hrest⟩ := ih h
      rw [logicalLine_cons hc hopen' hopen'']
      exact ⟨Text.squeeze_cons_congr c hline, hrest⟩
    | feed h => exact absurd rfl hc

theorem rel_macroHead? (h : WithReturns cs ds) :
    Option.Rel (fun r q => r.1 = q.1 ∧ WithReturns r.2 q.2) (macroHead? cs) (macroHead? ds) := by
  have hgap : isGap '\r' = isGap '\n' := by decide
  simp only [macroHead?, Option.bind_eq_bind]
  refine rel_bind ((h.dropWhile hgap).char? (by decide) (by decide)) fun cs ds h => ?_
  refine rel_bind ((h.dropWhile hgap).literal? (by decide) (by decide)) fun cs ds h => ?_
  rw [h.head?_any hgap]
  refine rel_bind (R := Eq) ?_ fun _ _ _ => ?_
  · cases ds.head?.any isGap with
    | false => exact .none
    | true => exact .some rfl
  refine rel_bind (h.dropWhile hgap).name? fun r q hread => ?_
  refine rel_bind (hread.2.char? (by decide) (by decide)) fun cs ds h => ?_
  exact .some ⟨hread.1, h⟩

/-- The macro with a space behind its body and with single spaces for white space. -/
def Macro.levelled (m : Macro) : Macro :=
  m.padded.squeezed

/-- Macro definitions are read alike with either line ending, white space in their bodies apart.
-/
theorem rel_macro? (h : WithReturns cs ds) :
    Option.Rel (fun r q => r.1.levelled = q.1.levelled ∧ WithReturns r.2 q.2)
      (macro? cs) (macro? ds) := by
  have hclose : ('\r' != ')') = ('\n' != ')') := by decide
  rw [macro?_eq, macro?_eq]
  refine rel_bind (rel_macroHead? h) fun r q hread => ?_
  simp only [macroTail?, Option.bind_eq_bind]
  refine rel_bind ((hread.2.dropWhile hclose).char? (by decide) (by decide)) fun cs ds h => ?_
  obtain ⟨hline, hrest⟩ := withReturns_logicalLine h
  have hparameters := (hread.2.takeWhile (p := fun c => c != ')') hclose).squeeze_eq
  refine .some ⟨?_, hrest⟩
  simp only [Macro.levelled, Macro.padded, Macro.squeezed, hread.1, hline, hparameters]

/-- The macros differ at most in white space, and the texts around them in line endings. -/
def AlikeButEndings (p q : List Macro × List Char) : Prop :=
  p.1.map Macro.levelled = q.1.map Macro.levelled ∧ WithReturns p.2 q.2

/-- With either line ending the same macros are taken out of a text. -/
theorem alike_splitMacros (h : WithReturns cs ds) (lineStart : Bool) :
    AlikeButEndings (splitMacros lineStart cs) (splitMacros lineStart ds) := by
  induction hlength : cs.length using Nat.strong_induction_on generalizing cs ds lineStart with
  | _ n ih =>
    cases h with
    | nil =>
      rw [splitMacros]
      exact ⟨rfl, .nil⟩
    | @char c cs ds plain h =>
      have hshort : cs.length < n := by
        rw [List.length_cons] at hlength
        omega
      have hstep (hcs : lineStart = true → macro? (c :: cs) = none)
          (hds : lineStart = true → macro? (c :: ds) = none) :
          AlikeButEndings (splitMacros lineStart (c :: cs)) (splitMacros lineStart (c :: ds)) := by
        obtain ⟨hmacros, htext⟩ := ih cs.length hshort h (c = '\n') rfl
        rw [splitMacros_cons_none hcs, splitMacros_cons_none hds]
        exact ⟨hmacros, .char plain htext⟩
      cases lineStart with
      | false => exact hstep (fun hfalse => by cases hfalse) (fun hfalse => by cases hfalse)
      | true =>
        have hread := rel_macro? (WithReturns.char plain h)
        cases hcs : macro? (c :: cs) with
        | none =>
          rw [hcs] at hread
          exact hstep (fun _ => hcs) (fun _ => eq_none_of_rel hread)
        | some r =>
          rw [hcs] at hread
          obtain ⟨q, hds, hsame, hrest⟩ := exists_of_rel hread
          have hlonger := macro?_length hcs
          obtain ⟨hmacros, htext⟩ := ih r.2.length (by omega) hrest false rfl
          rw [splitMacros_some hcs, splitMacros_some hds]
          refine ⟨?_, htext⟩
          rw [List.map_cons, List.map_cons, hsame, hmacros]
    | @feed cs ds h =>
      -- No definition begins at a line ending, and behind it a line begins in both texts.
      have hshort : cs.length < n := by
        rw [List.length_cons] at hlength
        omega
      obtain ⟨hmacros, htext⟩ := ih cs.length hshort h true rfl
      have hcs := splitMacros_quiet (u := []) (Or.inl List.not_mem_nil) lineStart cs
      have hds := splitMacros_quiet (u := ['\r']) (Or.inl (by decide)) lineStart ds
      rw [List.nil_append, List.nil_append] at hcs
      rw [List.singleton_append, List.singleton_append] at hds
      rw [hcs, hds]
      exact ⟨hmacros, .feed htext⟩

/-! Scans -/

/-- The definitions do not depend on the line endings. -/
theorem definitions_withReturns (h : WithReturns cs ds) : definitions cs = definitions ds := by
  obtain ⟨hmacros, htext⟩ := alike_splitMacros h true
  have hpadded : ((splitMacros true cs).1.map Macro.padded).map Macro.squeezed =
      ((splitMacros true ds).1.map Macro.padded).map Macro.squeezed := by
    rw [List.map_map, List.map_map]
    exact hmacros
  have hfound := filterMap_definition?_congr (b := none) hpadded htext.squeeze_eq
  rwa [definition?_padded, definition?_padded] at hfound

/-- A marker without line endings in it cuts both texts at the same place. -/
theorem publicPart_withReturns (s : LintSettings)
    (hmarker : ∀ mark, s.implementationMarker = some mark →
      '\r' ∉ mark.toList ∧ '\n' ∉ mark.toList)
    (h : WithReturns cs ds) : WithReturns (publicPart s cs) (publicPart s ds) := by
  simp only [publicPart]
  cases hset : s.implementationMarker with
  | none => exact h
  | some mark =>
    obtain ⟨hreturn, hfeed⟩ := hmarker mark hset
    exact h.before hreturn hfeed

/-- A scan finds the same types when each line feed becomes a carriage return and a line feed. -/
theorem scan_addReturns (s : LintSettings) (header : String) (hheader : '\r' ∉ header.toList)
    (hmarker : ∀ mark, s.implementationMarker = some mark →
      '\r' ∉ mark.toList ∧ '\n' ∉ mark.toList) :
    scan s (String.ofList (Text.addReturns header.toList)) = scan s header := by
  have hpublic := publicPart_withReturns s hmarker (Text.withReturns_addReturns hheader)
  have hplain := withReturns_stripLinesFrom (withReturns_stripBlocks hpublic) false
  have hfound : definitions (stripComments (publicPart s (Text.addReturns header.toList))) =
      definitions (stripComments (publicPart s header.toList)) :=
    (definitions_withReturns hplain).symm
  rw [scan, scan, String.toList_ofList, hfound]

/-! A macro over several lines, a comment and a typedef over several lines -/

def spreadHeader : String :=
  "#define S(kind,\n  n) \\\n struct nk_##kind \x7b \\\n int a; \x7d\nS( f,\n 8 );\n// a\n" ++
    "typedef union /* b\nc */ nk_t\n\x7b\nint i;\n\x7d\nnk_h\n;\n"

/-- A header with a continued macro, a comment and a typedef over several lines. -/
theorem scan_addReturns_spreadHeader :
    '\r' ∉ spreadHeader.toList ∧
      scan .default (String.ofList (Text.addReturns spreadHeader.toList)) =
        [⟨⟨.struct, "nk_f"⟩, none⟩, ⟨⟨.typedef, "nk_h"⟩, some "union nk_t"⟩] := by
  have hheader : '\r' ∉ spreadHeader.toList := by decide +kernel
  have hmarker : ∀ mark, LintSettings.default.implementationMarker = some mark →
      '\r' ∉ mark.toList ∧ '\n' ∉ mark.toList := by
    rintro mark ⟨⟩
    decide +kernel
  refine ⟨hheader, ?_⟩
  rw [scan_addReturns .default spreadHeader hheader hmarker]
  decide +kernel

end LayoutGuard.Header
