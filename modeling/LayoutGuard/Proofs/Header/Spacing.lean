import LayoutGuard.Proofs.Header.Template
import LayoutGuard.Proofs.Text.Squeeze

/-!
The amount of white space does not matter for the definitions that are found, neither in
the text that is searched nor in the parameters and bodies of its macros. Each reader is
shown to read a squeezed text like the text itself.
-/

namespace LayoutGuard.Header

open Text (isBlank isWordChar squeeze)

/-! Heads of definitions -/

theorem isBlank_brace : isBlank '\x7b' = false := by
  decide

theorem compositeKeyword?_squeeze (cs : List Char) :
    compositeKeyword? (squeeze cs) = (compositeKeyword? cs).map fun r => (r.1, squeeze r.2) := by
  rw [compositeKeyword?, compositeKeyword?, Text.literal?_squeeze (by decide),
    Text.literal?_squeeze (by decide)]
  cases Text.literal? "struct" cs with
  | some rest => rfl
  | none => cases Text.literal? "union" cs <;> rfl

/-- How much white space there is does not matter to the head of a definition. -/
theorem taggedHead?_squeeze (cs : List Char) : taggedHead? (squeeze cs) = taggedHead? cs := by
  simp only [taggedHead?, compositeKeyword?_squeeze, Text.blanks?_squeeze, Text.name?_squeeze,
    Text.skipBlanks_squeeze, Text.char?_squeeze isBlank_brace, Option.bind_eq_bind,
    Option.bind_map, Function.comp_def]

/-- The text behind the brace that closes `depth` open ones. -/
def closeRest (depth : Nat) (cs : List Char) : Option (List Char) :=
  (closeBlock depth cs).map Prod.snd

theorem closeRest_cons {c : Char} (hc : Braceless c) (depth : Nat) (cs : List Char) :
    closeRest depth (c :: cs) = closeRest depth cs := by
  rw [closeRest, closeBlock.eq_def]
  simp only [if_neg hc.1, if_neg hc.2, Option.map_map]
  rfl

theorem closeRest_open (depth : Nat) (cs : List Char) :
    closeRest depth ('\x7b' :: cs) = closeRest (depth + 1) cs := by
  rw [closeRest, closeBlock.eq_def]
  simp only [if_true, Option.map_map]
  rfl

theorem closeRest_unopened (cs : List Char) : closeRest 0 ('\x7d' :: cs) = none :=
  rfl

theorem closeRest_last (cs : List Char) : closeRest 1 ('\x7d' :: cs) = some cs :=
  rfl

theorem closeRest_close (depth : Nat) (cs : List Char) :
    closeRest (depth + 2) ('\x7d' :: cs) = closeRest (depth + 1) cs := by
  rw [closeRest, closeBlock.eq_def]
  simp only [if_neg (show '\x7d' ≠ '\x7b' by decide), if_true, Option.map_map]
  rfl

theorem closeRest_skipBlanks (depth : Nat) (cs : List Char) :
    closeRest depth (Text.skipBlanks cs) = closeRest depth cs := by
  induction cs with
  | nil => rfl
  | cons c cs ih =>
    cases hc : isBlank c with
    | true =>
      rw [Text.skipBlanks_cons_blank hc, ih, closeRest_cons (braceless_of_isBlank hc)]
    | false => rw [Text.skipBlanks_of_not_blank hc]

/-- Blocks end at the same brace when white space is squeezed. -/
theorem closeRest_squeeze (depth : Nat) (cs : List Char) :
    closeRest depth (squeeze cs) = (closeRest depth cs).map squeeze := by
  induction cs generalizing depth with
  | nil => rfl
  | cons c cs ih =>
    cases hc : isBlank c with
    | true =>
      rw [Text.squeeze_cons_blank hc, closeRest_cons (braceless_of_isBlank Text.isBlank_space),
        closeRest_skipBlanks, ih, closeRest_cons (braceless_of_isBlank hc)]
    | false =>
      rw [Text.squeeze_cons hc]
      by_cases hopen : c = '\x7b'
      · subst hopen
        rw [closeRest_open, closeRest_open, ih]
      · by_cases hclose : c = '\x7d'
        · subst hclose
          rcases depth with _ | _ | depth
          · rw [closeRest_unopened, closeRest_unopened, Option.map_none]
          · rw [closeRest_last, closeRest_last, Option.map_some]
          · rw [closeRest_close, closeRest_close, ih]
        · rw [closeRest_cons ⟨hopen, hclose⟩, ih, closeRest_cons ⟨hopen, hclose⟩]

theorem head?_squeeze_eq_some_iff {c : Char} (hc : isBlank c = false) (cs : List Char) :
    (squeeze cs).head? = some c ↔ cs.head? = some c := by
  cases cs with
  | nil => rfl
  | cons d cs =>
    cases hd : isBlank d with
    | true =>
      rw [Text.squeeze_cons_blank hd]
      simp [Text.ne_of_isBlank hd hc, Text.ne_of_isBlank Text.isBlank_space hc]
    | false =>
      rw [Text.squeeze_cons hd]
      rfl

def typedefTail? (kind : CType.Kind) (cs : List Char) : Option (String × Option String) := do
  let cs := Text.skipBlanks cs
  let tag := Text.name? cs
  let cs := Text.skipBlanks (tag.elim cs Prod.snd)
  guard (cs.head? = some '\x7b')
  let cs ← closeRest 0 cs
  let (name, cs) ← Text.name? (Text.skipBlanks cs)
  let _ ← Text.char? ';' (Text.skipBlanks cs)
  return (String.ofList name, tag.map fun t => CType.spelling ⟨kind, String.ofList t.1⟩)

theorem typedef?_eq (cs : List Char) : typedef? cs =
    (Text.literal? "typedef" cs).bind fun cs => (Text.blanks? cs).bind fun cs =>
      (compositeKeyword? cs).bind fun found => typedefTail? found.1 found.2 := by
  simp only [typedef?, typedefTail?, closeRest, Option.bind_eq_bind, Option.bind_map]
  rfl

theorem typedefTail?_squeeze (kind : CType.Kind) (cs : List Char) :
    typedefTail? kind (squeeze cs) = typedefTail? kind cs := by
  have hbehind (name : Option (List Char × List Char)) (rest : List Char) :
      Text.skipBlanks ((name.map fun r => (r.1, squeeze r.2)).elim (squeeze rest) Prod.snd) =
        squeeze (Text.skipBlanks (name.elim rest Prod.snd)) := by
    cases name <;> exact Text.skipBlanks_squeeze _
  simp only [typedefTail?, Text.skipBlanks_squeeze, Text.name?_squeeze, hbehind,
    closeRest_squeeze, head?_squeeze_eq_some_iff isBlank_brace,
    Text.char?_squeeze (show isBlank ';' = false by decide), Option.bind_eq_bind, Option.bind_map,
    Option.map_map, Function.comp_def]

/-- How much white space there is does not matter to a typedef. -/
theorem typedef?_squeeze (cs : List Char) : typedef? (squeeze cs) = typedef? cs := by
  have hword : "typedef".toList.any isBlank = false := by decide
  simp only [typedef?_eq, Text.literal?_squeeze hword, Text.blanks?_squeeze,
    compositeKeyword?_squeeze, Option.bind_map, Function.comp_def, typedefTail?_squeeze]

/-! Places of a text -/

section Places

variable {α : Type} {f g : Option Char × List Char → Option α}

/-- A reader of places for which the amount of white space does not matter. -/
structure Spaced (g : Option Char × List Char → Option α) : Prop where
  at_blank : ∀ b c cs, isBlank c = true → g (b, c :: cs) = none
  behind_blank : ∀ c cs, isBlank c = true → g (some c, cs) = g (some ' ', cs)

theorem Spaced.filterMap_skipBlanks (hg : Spaced g) {c : Char} (hc : isBlank c = true)
    (cs : List Char) : (Text.places (some ' ') (Text.skipBlanks cs)).filterMap g =
      (Text.places (some c) cs).filterMap g := by
  induction cs generalizing c with
  | nil => rfl
  | cons d cs ih =>
    cases hd : isBlank d with
    | true =>
      rw [Text.skipBlanks_cons_blank hd, Text.places,
        List.filterMap_cons_none (hg.at_blank _ d cs hd), ih hd]
    | false =>
      rw [Text.skipBlanks_of_not_blank hd, Text.places, Text.places, List.filterMap_cons,
        List.filterMap_cons, hg.behind_blank c _ hc]

/-- A reader that does not care for white space finds the same at all places. -/
theorem Spaced.filterMap_places (hg : Spaced g) (hfg : ∀ b cs, g (b, squeeze cs) = f (b, cs))
    (b : Option Char) (cs : List Char) :
    (Text.places b (squeeze cs)).filterMap g = (Text.places b cs).filterMap f := by
  induction cs generalizing b with
  | nil => rfl
  | cons c cs ih =>
    cases hc : isBlank c with
    | true =>
      have hnone : f (b, c :: cs) = none := by
        rw [← hfg, Text.squeeze_cons_blank hc]
        exact hg.at_blank b ' ' _ Text.isBlank_space
      rw [Text.squeeze_cons_blank hc, Text.places, Text.places, List.filterMap_cons_none hnone,
        List.filterMap_cons_none (hg.at_blank b ' ' _ Text.isBlank_space),
        hg.filterMap_skipBlanks hc, ih]
    | false =>
      have hhere : g (b, c :: squeeze cs) = f (b, c :: cs) := by
        rw [← Text.squeeze_cons hc, hfg]
      rw [Text.squeeze_cons hc, Text.places, Text.places, List.filterMap_cons,
        List.filterMap_cons, hhere, ih]

end Places

theorem atWordEdge_squeeze (b : Option Char) (cs : List Char) :
    Text.atWordEdge b (squeeze cs) = Text.atWordEdge b cs := by
  rw [Text.atWordEdge, Text.atWordEdge,
    Text.head?_any_squeeze fun c => Text.isWordChar_of_isBlank]

theorem atWordEdge_behind_blank {c : Char} (hc : isBlank c = true) (cs : List Char) :
    Text.atWordEdge (some c) cs = Text.atWordEdge (some ' ') cs := by
  simp [Text.atWordEdge, Text.isWordChar_of_isBlank hc,
    Text.isWordChar_of_isBlank Text.isBlank_space]

/-! Macros -/

def Macro.squeezed (m : Macro) : Macro :=
  ⟨m.name, squeeze m.parameters, squeeze m.body⟩

def Template.squeezed (t : Template) : Template :=
  { t with parameters := t.parameters.map squeeze }

theorem isPasteChar_of_isBlank {c : Char} (hc : isBlank c = true) : isPasteChar c = false := by
  have hsign : c ≠ '#' := Text.ne_of_isBlank hc (by decide)
  simp [isPasteChar, Text.isWordChar_of_isBlank hc, hsign]

theorem spaced_pastedHead? : Spaced pastedHead? where
  at_blank b c cs hc := by
    simp [pastedHead?, compositeKeyword?_of_not_word (Text.isWordChar_of_isBlank hc)]
  behind_blank c cs hc := by
    simp only [pastedHead?, atWordEdge_behind_blank hc]

theorem pastedHead?_squeeze (b : Option Char) (cs : List Char) :
    pastedHead? (b, squeeze cs) = pastedHead? (b, cs) := by
  simp only [pastedHead?, atWordEdge_squeeze, compositeKeyword?_squeeze, Text.blanks?_squeeze,
    Text.head?_any_squeeze fun c => Text.isNameStart_of_isBlank,
    Text.takeWhile_squeeze fun c => isPasteChar_of_isBlank,
    Text.dropWhile_squeeze fun c => isPasteChar_of_isBlank, Text.skipBlanks_squeeze,
    Text.char?_squeeze isBlank_brace, Option.bind_eq_bind, Option.bind_map, Function.comp_def]

theorem splitArguments_squeeze (cs : List Char) :
    splitArguments (squeeze cs) = (splitArguments cs).map squeeze := by
  rw [splitArguments, splitArguments, Text.splitOn_squeeze (by decide), List.map_map,
    List.map_map]
  exact List.map_congr_left fun p _ => Text.trim_squeeze p

/-- Squeezing the body of a macro squeezes the parameters of its template and nothing else. -/
theorem template?_squeezed (m : Macro) :
    m.squeezed.template? = m.template?.map Template.squeezed := by
  rw [Macro.template?, Macro.template?, Macro.squeezed, ← List.head?_filterMap,
    ← List.head?_filterMap, spaced_pastedHead?.filterMap_places pastedHead?_squeeze,
    splitArguments_squeeze, Option.map_map]
  rfl

theorem lookup_map {α β γ : Type} [BEq α] (f : β → γ) (l : List (α × β)) (a : α) :
    (l.map fun p => (p.1, f p.2)).lookup a = (l.lookup a).map f := by
  induction l with
  | nil => rfl
  | cons p l ih =>
    rw [List.map_cons, List.lookup_cons, List.lookup_cons, ih]
    split <;> rfl

theorem findTemplate?_squeezed (ms : List Macro) (name : List Char) :
    findTemplate? (ms.map Macro.squeezed) name =
      (findTemplate? ms name).map Template.squeezed := by
  rw [findTemplate?, findTemplate?, ← lookup_map, ← List.map_reverse, List.filterMap_map,
    List.map_filterMap]
  congr 1
  refine List.filterMap_congr fun m _ => ?_
  simp only [Function.comp_apply, template?_squeezed, Option.map_map]
  rfl

/-- The pieces of a name hold no white space. -/
theorem Template.WellFormed.plain {t : Template} (ht : t.WellFormed) :
    ∀ piece ∈ t.pieces, ∀ c ∈ piece, isBlank c = false := by
  intro piece hpiece c hc
  cases hblank : isBlank c with
  | false => rfl
  | true =>
    have hpaste := ht.pasted piece hpiece c hc
    rw [isPasteChar_of_isBlank hblank] at hpaste
    cases hpaste

theorem idxOf?_squeeze {piece : List Char} (hpiece : ∀ c ∈ piece, isBlank c = false)
    (parameters : List (List Char)) :
    (parameters.map squeeze).idxOf? piece = parameters.idxOf? piece := by
  have hsame (p : List Char) : (squeeze p == piece) = (p == piece) := by
    rw [Bool.eq_iff_iff, beq_iff_eq, beq_iff_eq]
    constructor
    · rintro rfl
      have hp : ∀ c ∈ p, isBlank c = false := by
        have hany := Text.any_isBlank_squeeze p
        rw [List.any_eq_false.mpr (by simpa using hpiece)] at hany
        simpa using hany.symm
      exact (Text.squeeze_eq_self hp).symm
    · rintro rfl
      exact Text.squeeze_eq_self hpiece
  have hfind : List.findIdx? (· == piece) (parameters.map squeeze) =
      List.findIdx? (· == piece) parameters := by
    rw [List.findIdx?_map]
    exact congrArg (List.findIdx? · parameters) (funext hsame)
  exact hfind

def Template.part? (t : Template) (arguments : List (List Char)) (piece : List Char) :
    Option (List Char) :=
  match t.parameters.idxOf? piece with
  | some i => arguments[i]?
  | none => some piece

theorem part?_squeezed {t : Template} {piece : List Char} (hpiece : ∀ c ∈ piece, isBlank c = false)
    (arguments : List (List Char)) :
    t.squeezed.part? (arguments.map squeeze) piece = (t.part? arguments piece).map squeeze := by
  rw [Template.part?, Template.part?, Template.squeezed, idxOf?_squeeze hpiece]
  cases t.parameters.idxOf? piece with
  | some i => exact List.getElem?_map
  | none => rw [Option.map_some, Text.squeeze_eq_self hpiece]

theorem mapM_part?_squeezed {t : Template} {pieces : List (List Char)}
    (hpieces : ∀ piece ∈ pieces, ∀ c ∈ piece, isBlank c = false) (arguments : List (List Char)) :
    pieces.mapM (t.squeezed.part? (arguments.map squeeze)) =
      (pieces.mapM (t.part? arguments)).map fun parts => parts.map squeeze := by
  induction pieces with
  | nil => rfl
  | cons piece pieces ih =>
    have hrest := ih fun p hp => hpieces p (List.mem_cons_of_mem piece hp)
    rw [List.mapM_cons, List.mapM_cons, hrest, part?_squeezed (hpieces piece List.mem_cons_self)]
    cases t.part? arguments piece with
    | none => rfl
    | some part => cases pieces.mapM (t.part? arguments) <;> rfl

theorem isName_of_blank {cs : List Char} (h : cs.any isBlank = true) : Text.isName cs = false := by
  obtain ⟨c, hc, hblank⟩ := List.any_eq_true.mp h
  cases hname : Text.isName cs with
  | false => rfl
  | true =>
    have hword := Text.isWordChar_of_isNameRest (Text.isNameRest_of_mem_name hname hc)
    rw [Text.isWordChar_of_isBlank hblank] at hword
    cases hword

/-- Squeezing the parts of a name changes nothing, or there is no name at all. -/
theorem flatten_squeeze (parts : List (List Char)) :
    (parts.map squeeze).flatten = parts.flatten ∨
      Text.isName (parts.map squeeze).flatten = false ∧ Text.isName parts.flatten = false := by
  cases hblank : parts.flatten.any isBlank with
  | false =>
    have hplain : ∀ part ∈ parts, squeeze part = part := fun part hpart =>
      Text.squeeze_eq_self fun c hc => by
        simpa using List.any_eq_false.mp hblank c (List.mem_flatten.mpr ⟨part, hpart, hc⟩)
    exact Or.inl (by rw [List.map_congr_left hplain, List.map_id'])
  | true =>
    have hsqueezed : (parts.map squeeze).flatten.any isBlank = true := by
      obtain ⟨c, hc, hcblank⟩ := List.any_eq_true.mp hblank
      obtain ⟨part, hpart, hin⟩ := List.mem_flatten.mp hc
      have hany : (squeeze part).any isBlank = true := by
        rw [Text.any_isBlank_squeeze]
        exact List.any_eq_true.mpr ⟨c, hin, hcblank⟩
      obtain ⟨d, hd, hdblank⟩ := List.any_eq_true.mp hany
      exact List.any_eq_true.mpr
        ⟨d, List.mem_flatten.mpr ⟨_, List.mem_map_of_mem hpart, hd⟩, hdblank⟩
    exact Or.inr ⟨isName_of_blank hsqueezed, isName_of_blank hblank⟩

theorem expand?_eq (t : Template) (arguments : List (List Char)) : t.expand? arguments =
    (t.pieces.mapM (t.part? arguments)).bind fun parts =>
      if Text.isName parts.flatten then some ⟨t.kind, String.ofList parts.flatten⟩ else none := by
  rw [Template.expand?]
  refine Option.bind_congr fun parts _ => ?_
  dsimp only
  cases Text.isName parts.flatten <;> rfl

/-- White space in parameters and arguments does not change the type that is pasted together. -/
theorem expand?_squeezed {t : Template} (ht : t.WellFormed) (arguments : List (List Char)) :
    t.squeezed.expand? (arguments.map squeeze) = t.expand? arguments := by
  have hparts := mapM_part?_squeezed (t := t) ht.plain arguments
  rw [expand?_eq, expand?_eq, show t.squeezed.pieces = t.pieces from rfl, hparts, Option.bind_map]
  refine Option.bind_congr fun parts _ => ?_
  dsimp only [Function.comp_apply]
  rcases flatten_squeeze parts with hsame | ⟨hsqueezed, hplain⟩
  · rw [hsame]
    rfl
  · rw [hsqueezed, hplain]
    rfl

/-- White space matters neither in an invocation nor in the macro that it invokes. -/
theorem stamped?_squeezed (ms : List Macro) (cs : List Char) :
    stamped? (ms.map Macro.squeezed) (squeeze cs) = stamped? ms cs := by
  have hinner : ∀ c, isBlank c = true → (c != '(' && c != ')') = true := by
    intro c hc
    simp [Text.ne_of_isBlank hc (show isBlank '(' = false by decide),
      Text.ne_of_isBlank hc (show isBlank ')' = false by decide)]
  simp only [stamped?, Text.name?_squeeze, Text.skipBlanks_squeeze,
    Text.char?_squeeze (show isBlank '(' = false by decide), Text.takeWhile_squeeze_over hinner,
    Text.dropWhile_squeeze_over hinner,
    head?_squeeze_eq_some_iff (show isBlank ')' = false by decide), splitArguments_squeeze,
    findTemplate?_squeezed, Option.bind_eq_bind, Option.bind_map, Function.comp_def]
  refine Option.bind_congr fun name _ => Option.bind_congr fun rest _ =>
    Option.bind_congr fun _ _ => Option.bind_congr fun t ht => ?_
  exact expand?_squeezed (wellFormed_of_findTemplate? ht) _

/-! Definitions -/

/-- White space matters to no definition. -/
theorem definition?_squeezed (ms : List Macro) (b : Option Char) (cs : List Char) :
    definition? (ms.map Macro.squeezed) (b, squeeze cs) = definition? ms (b, cs) := by
  simp only [definition?, atWordEdge_squeeze, typedef?_squeeze, taggedHead?_squeeze,
    stamped?_squeezed]

theorem spaced_definition? (ms : List Macro) : Spaced (definition? ms) where
  at_blank _ _ cs hc := definition?_of_not_word (Text.isWordChar_of_isBlank hc) cs
  behind_blank c cs hc := by
    simp only [definition?, atWordEdge_behind_blank hc]

/-- Two texts that differ only in their white space, with macros that differ only in
theirs, hold the same definitions. -/
theorem filterMap_definition?_congr {ms ns : List Macro} {cs ds : List Char} {b : Option Char}
    (hmacros : ms.map Macro.squeezed = ns.map Macro.squeezed) (htexts : squeeze cs = squeeze ds) :
    (Text.places b cs).filterMap (definition? ms) =
      (Text.places b ds).filterMap (definition? ns) := by
  have hsqueezed (ms : List Macro) (cs : List Char) :=
    (spaced_definition? (ms.map Macro.squeezed)).filterMap_places (definition?_squeezed ms) b cs
  rw [← hsqueezed ms cs, ← hsqueezed ns ds, hmacros, htexts]

end LayoutGuard.Header
