import LayoutGuard.Proofs.Header.WholeLines
import LayoutGuard.Proofs.Header.Spacing

/-!
Macro definitions and the lines they stand on. Blank lines that are put in between two
lines change nothing about the definitions of a text but their white space, unless the
first of the two lines is continued by the second.
-/

namespace LayoutGuard.Header

open Text (isBlank isWordChar squeeze)

/-! The end of a macro definition -/

/-- The last line of a text goes on behind its line feed. -/
def Continued (cs : List Char) : Prop :=
  ['\\', '\n'] <:+ cs ∨ ['\\', '\r', '\n'] <:+ cs

instance (cs : List Char) : Decidable (Continued cs) :=
  inferInstanceAs (Decidable (_ ∨ _))

theorem not_continued_of_append {u cs : List Char} (h : ¬Continued (u ++ cs)) : ¬Continued cs :=
  fun hcs => h (hcs.imp (fun hend => hend.trans (List.suffix_append u cs))
    (fun hend => hend.trans (List.suffix_append u cs)))

theorem logicalLine_feed (cs : List Char) : logicalLine ('\n' :: cs) = ([], '\n' :: cs) := by
  rw [logicalLine]
  · exact if_pos rfl
  · rintro _ ⟨⟩
  · rintro _ ⟨⟩

theorem logicalLine_cons {c : Char} {cs : List Char} (hc : c ≠ '\n')
    (hfeed : ¬['\\', '\n'] <+: c :: cs) (hreturn : ¬['\\', '\r', '\n'] <+: c :: cs) :
    logicalLine (c :: cs) = (c :: (logicalLine cs).1, (logicalLine cs).2) := by
  rw [logicalLine]
  · exact if_neg hc
  · rintro tail rfl rfl
    exact hfeed ⟨tail, rfl⟩
  · rintro tail rfl rfl
    exact hreturn ⟨tail, rfl⟩

/-- A line feed that ends a line ends a logical line, whatever follows it. -/
theorem logicalLine_append {u : List Char} (h : ¬Continued (u ++ ['\n'])) (rest : List Char) :
    logicalLine (u ++ '\n' :: rest) =
      ((logicalLine u).1, (logicalLine u).2 ++ '\n' :: rest) := by
  fun_induction logicalLine u with
  | case1 => exact logicalLine_feed rest
  | case2 cs line further heq ih =>
    have hcs := ih (not_continued_of_append (u := ['\\', '\n']) h)
    rw [heq] at hcs
    rw [List.cons_append, List.cons_append, logicalLine, hcs]
  | case3 cs line further heq ih =>
    have hcs := ih (not_continued_of_append (u := ['\\', '\r', '\n']) h)
    rw [heq] at hcs
    rw [List.cons_append, List.cons_append, List.cons_append, logicalLine, hcs]
  | case4 cs => exact logicalLine_feed (cs ++ '\n' :: rest)
  | case5 c cs hfeed hreturn hc line further heq ih =>
    have hcs := ih (not_continued_of_append (u := [c]) h)
    rw [heq] at hcs
    have hfeed' : ¬['\\', '\n'] <+: c :: (cs ++ '\n' :: rest) := by
      intro hbegins
      obtain ⟨rfl, hnext⟩ := List.cons_prefix_cons.mp hbegins
      cases cs with
      | nil => exact h (Or.inl List.suffix_rfl)
      | cons d ds =>
        obtain ⟨rfl, -⟩ := List.cons_prefix_cons.mp hnext
        exact hfeed ds rfl rfl
    have hreturn' : ¬['\\', '\r', '\n'] <+: c :: (cs ++ '\n' :: rest) := by
      intro hbegins
      obtain ⟨rfl, hnext⟩ := List.cons_prefix_cons.mp hbegins
      cases cs with
      | nil => exact absurd (List.cons_prefix_cons.mp hnext).1 (by decide)
      | cons d ds =>
        obtain ⟨rfl, hlast⟩ := List.cons_prefix_cons.mp hnext
        cases ds with
        | nil => exact h (Or.inr List.suffix_rfl)
        | cons e es =>
          obtain ⟨rfl, -⟩ := List.cons_prefix_cons.mp hlast
          exact hreturn es rfl rfl
    rw [List.cons_append, logicalLine_cons hc hfeed' hreturn', hcs]

/-! Macro definitions behind which lines are put in -/

def macroHead? (cs : List Char) : Option (List Char × List Char) := do
  let cs ← Text.char? '#' (cs.dropWhile isGap)
  let cs ← Text.literal? "define" (cs.dropWhile isGap)
  guard (cs.head?.any isGap)
  let (name, cs) ← Text.name? (cs.dropWhile isGap)
  let cs ← Text.char? '(' cs
  return (name, cs)

def macroTail? (name cs : List Char) : Option (Macro × List Char) := do
  let further ← Text.char? ')' (cs.dropWhile fun c => c != ')')
  return (⟨name, cs.takeWhile fun c => c != ')', (logicalLine further).1⟩,
    (logicalLine further).2)

/-- A macro definition is read as a head and the rest from its parameters on. -/
theorem macro?_eq (cs : List Char) :
    macro? cs = (macroHead? cs).bind fun r => macroTail? r.1 r.2 := by
  simp only [macro?, macroHead?, macroTail?, Option.bind_eq_bind, Option.bind_assoc]
  rfl

/-- The head of a definition does not look beyond its line. -/
theorem macroHead?_append (u rest : List Char) :
    macroHead? (u ++ '\n' :: rest) =
      (macroHead? u).map fun r => (r.1, r.2 ++ '\n' :: rest) := by
  have hgap : isGap '\n' = false := rfl
  have hhead (cs : List Char) : (cs ++ '\n' :: rest).head?.any isGap = cs.head?.any isGap := by
    cases cs <;> rfl
  simp only [macroHead?, Text.dropWhile_append_stop _ hgap, hhead,
    Text.char?_append_stop (show '\n' ≠ '#' by decide),
    Text.char?_append_stop (show '\n' ≠ '(' by decide),
    Text.literal?_append_stop (show '\n' ∉ "define".toList by decide),
    Text.name?_append_stop (show isWordChar '\n' = false by decide),
    Option.bind_eq_bind, Option.bind_map, Option.map_bind, Function.comp_def]
  rfl

theorem macroHead?_suffix {cs name rest : List Char} (h : macroHead? cs = some (name, rest)) :
    ∃ w, w ≠ [] ∧ cs = w ++ rest := by
  simp only [macroHead?, Option.bind_eq_bind, Option.bind_eq_some_iff] at h
  obtain ⟨cs₁, hsign, cs₂, hdefine, -, -, ⟨found, cs₃⟩, hname, _, hopen, heq⟩ := h
  cases heq
  have hbehind : rest <:+ cs₁ := by
    have h₃ : rest <:+ cs₃ := by
      obtain rfl : cs₃ = '(' :: rest := Text.char?_eq_some_iff.mp hopen
      exact List.suffix_cons _ _
    have h₂ : cs₃ <:+ cs₂ := by
      refine List.IsSuffix.trans ?_ (List.dropWhile_suffix isGap)
      rw [(Text.exists_name_of_name? hname).1]
      exact List.suffix_append _ _
    have h₁ : cs₂ <:+ cs₁ := by
      refine List.IsSuffix.trans ?_ (List.dropWhile_suffix isGap)
      rw [Text.literal?_eq_some_iff.mp hdefine]
      exact List.suffix_append _ _
    exact h₃.trans (h₂.trans h₁)
  obtain ⟨w, rfl⟩ := hbehind
  refine ⟨cs.takeWhile isGap ++ '#' :: w, by simp, ?_⟩
  rw [List.append_assoc, List.cons_append, ← Text.char?_eq_some_iff.mp hsign,
    List.takeWhile_append_dropWhile]

/-- The head of a macro definition holds a number sign and a parenthesis. -/
theorem signs_of_macroHead? {cs : List Char} {r : List Char × List Char}
    (h : macroHead? cs = some r) : '#' ∈ cs ∧ '(' ∈ cs := by
  simp only [macroHead?, Option.bind_eq_bind, Option.bind_eq_some_iff] at h
  obtain ⟨cs₁, hsign, cs₂, hdefine, -, -, ⟨name, cs₃⟩, hname, cs₄, hopen, -⟩ := h
  have h₁ : '#' :: cs₁ <:+ cs := by
    rw [← Text.char?_eq_some_iff.mp hsign]
    exact List.dropWhile_suffix isGap
  have h₂ : cs₂ <:+ cs₁ := by
    refine List.IsSuffix.trans ?_ (List.dropWhile_suffix isGap)
    rw [Text.literal?_eq_some_iff.mp hdefine]
    exact List.suffix_append _ _
  have h₃ : '(' :: cs₄ <:+ cs₂ := by
    obtain rfl : cs₃ = '(' :: cs₄ := Text.char?_eq_some_iff.mp hopen
    refine List.IsSuffix.trans ?_ (List.dropWhile_suffix isGap)
    rw [(Text.exists_name_of_name? hname).1]
    exact List.suffix_append _ _
  have h₄ : '(' :: cs₄ <:+ cs := h₃.trans (h₂.trans ((List.suffix_cons '#' cs₁).trans h₁))
  exact ⟨h₁.subset List.mem_cons_self, h₄.subset List.mem_cons_self⟩

/-- The list of parameters goes on over everything but its closing parenthesis. -/
theorem macroTail?_append {u : List Char} (hu : ')' ∉ u) (name rest : List Char) :
    macroTail? name (u ++ rest) =
      (macroTail? name rest).map fun r =>
        ({ r.1 with parameters := u ++ r.1.parameters }, r.2) := by
  have hopen : ∀ c ∈ u, (c != ')') = true := fun c hc => by
    simpa using fun heq : c = ')' => hu (heq ▸ hc)
  simp only [macroTail?, List.dropWhile_append_of_pos hopen, List.takeWhile_append_of_pos hopen,
    Option.bind_eq_bind, Option.map_bind, Function.comp_def]
  rfl

/-- A list of parameters that is closed on its line leaves what follows the line alone. -/
theorem macroTail?_closed {parameters further : List Char} (hopen : ')' ∉ parameters)
    (h : ¬Continued (further ++ ['\n'])) (name rest : List Char) :
    macroTail? name (parameters ++ ')' :: further ++ '\n' :: rest) =
      some (⟨name, parameters, (logicalLine further).1⟩,
        (logicalLine further).2 ++ '\n' :: rest) := by
  have hinner : ∀ c ∈ parameters, (c != ')') = true := fun c hc => by
    simpa using fun heq : c = ')' => hopen (heq ▸ hc)
  rw [List.append_assoc, List.cons_append, macroTail?,
    Text.dropWhile_stop hinner (by decide), Text.takeWhile_stop hinner (by decide),
    Text.char?, if_pos rfl, Option.bind_eq_bind, Option.bind_some, logicalLine_append h]
  rfl

/-- Nothing is lost between a logical line and what follows it. -/
theorem logicalLine_join (cs : List Char) : (logicalLine cs).1 ++ (logicalLine cs).2 = cs := by
  fun_induction logicalLine cs <;> simp_all

section Insert

variable {gap : List Char}

/-- Blank lines behind a line are out of reach of a macro definition that begins before
them, or they fall into its list of parameters. -/
theorem macro?_insert (hblank : ∀ c ∈ gap, isBlank c = true) {u : List Char}
    (h : ¬Continued (u ++ ['\n'])) (rest : List Char) :
    (macro? (u ++ '\n' :: (gap ++ rest)) = none ∧ macro? (u ++ '\n' :: rest) = none) ∨
      (∃ m w v, w ≠ [] ∧ u = w ++ v ∧
        ∀ tail, macro? (u ++ '\n' :: tail) = some (m, v ++ '\n' :: tail)) ∨
      ∃ m n further, m.squeezed = n.squeezed ∧
        macro? (u ++ '\n' :: (gap ++ rest)) = some (m, further) ∧
        macro? (u ++ '\n' :: rest) = some (n, further) := by
  cases hhead : macroHead? u with
  | none =>
    refine Or.inl ?_
    rw [macro?_eq, macro?_eq, macroHead?_append, macroHead?_append, hhead]
    exact ⟨rfl, rfl⟩
  | some found =>
    obtain ⟨name, e⟩ := found
    have hread (tail : List Char) :
        macro? (u ++ '\n' :: tail) = macroTail? name (e ++ '\n' :: tail) := by
      rw [macro?_eq, macroHead?_append, hhead]
      rfl
    obtain ⟨w, hw, rfl⟩ := macroHead?_suffix hhead
    by_cases hclose : ')' ∈ e
    · -- The body ends with the line at the latest, since the line is not continued.
      obtain ⟨parameters, further, rfl, habsent⟩ := List.eq_append_cons_of_mem hclose
      have hfurther : ¬Continued (further ++ ['\n']) := by
        refine not_continued_of_append (u := w ++ (parameters ++ [')'])) ?_
        simpa using h
      refine Or.inr (Or.inl ⟨_, w ++ (parameters ++ ')' :: (logicalLine further).1), _, ?_, ?_,
        fun tail => (hread tail).trans (macroTail?_closed habsent hfurther name tail)⟩)
      · simp
      · simp [logicalLine_join]
    · -- The list of parameters goes on over the blank lines, which only space it out.
      have hblankless : ')' ∉ gap := fun hc =>
        Text.ne_of_isBlank (hblank ')' hc) (show isBlank ')' = false by decide) rfl
      have hlong : ')' ∉ e ++ '\n' :: gap := by simp [hclose, hblankless]
      have hshort : ')' ∉ e ++ ['\n'] := by simp [hclose]
      have hinserted := macroTail?_append hlong name rest
      have hplain := macroTail?_append hshort name rest
      rw [List.append_assoc, List.cons_append, ← hread] at hinserted
      rw [List.append_assoc, List.singleton_append, ← hread] at hplain
      cases htail : macroTail? name rest with
      | none =>
        rw [htail] at hinserted hplain
        exact Or.inl ⟨hinserted, hplain⟩
      | some read =>
        rw [htail] at hinserted hplain
        refine Or.inr (Or.inr ⟨_, _, _, ?_, hinserted, hplain⟩)
        have hparameters : squeeze (e ++ '\n' :: gap ++ read.1.parameters) =
            squeeze (e ++ ['\n'] ++ read.1.parameters) := by
          rw [List.append_assoc, List.append_assoc]
          exact Text.squeeze_append_congr e (Text.squeeze_gap (by decide) hblank _)
        simp only [Macro.squeezed, hparameters]

theorem splitMacros_cons_none {lineStart : Bool} {c : Char} {cs : List Char}
    (h : lineStart = true → macro? (c :: cs) = none) :
    splitMacros lineStart (c :: cs) =
      ((splitMacros (c = '\n') cs).1, c :: (splitMacros (c = '\n') cs).2) := by
  have hnone : (if lineStart = true then macro? (c :: cs) else none) = none := by
    split
    · exact h ‹_›
    · rfl
  rw [splitMacros.eq_def]
  dsimp only
  split
  · rename_i heq
    cases hnone.symm.trans heq
  · rfl

theorem splitMacros_some {cs rest : List Char} {m : Macro} (h : macro? cs = some (m, rest)) :
    splitMacros true cs = (m :: (splitMacros false rest).1, (splitMacros false rest).2) := by
  cases cs with
  | nil => cases h
  | cons c cs =>
    rw [splitMacros.eq_def]
    dsimp only
    split
    · rename_i heq
      cases h.symm.trans heq
      rfl
    · rename_i heq
      cases h.symm.trans heq

/-- No macro definition begins on a line without a number sign or without a parenthesis. -/
theorem macro?_quiet {u : List Char} (hu : '#' ∉ u ∨ '(' ∉ u) (rest : List Char) :
    macro? (u ++ '\n' :: rest) = none := by
  have hhead : macroHead? u = none := by
    refine Option.eq_none_iff_forall_ne_some.mpr fun r hread => ?_
    obtain ⟨hsign, hopen⟩ := signs_of_macroHead? hread
    exact hu.elim (fun h => h hsign) (fun h => h hopen)
  rw [macro?_eq, macroHead?_append, hhead]
  rfl

theorem splitMacros_quiet {u : List Char} (hu : '#' ∉ u ∨ '(' ∉ u) (lineStart : Bool)
    (rest : List Char) :
    splitMacros lineStart (u ++ '\n' :: rest) =
      ((splitMacros true rest).1, u ++ '\n' :: (splitMacros true rest).2) := by
  have hnone : lineStart = true → macro? (u ++ '\n' :: rest) = none := fun _ => macro?_quiet hu rest
  induction u generalizing lineStart with
  | nil => exact splitMacros_cons_none hnone
  | cons c u ih =>
    have hu' : '#' ∉ u ∨ '(' ∉ u :=
      hu.imp (fun h hmem => h (List.mem_cons_of_mem c hmem))
        (fun h hmem => h (List.mem_cons_of_mem c hmem))
    rw [List.cons_append] at hnone ⊢
    rw [splitMacros_cons_none hnone, ih hu' _ fun _ => macro?_quiet hu' rest]
    rfl

/-- Lines of white space come through and begin a new line. -/
theorem splitMacros_gap (hblank : ∀ c ∈ gap, isBlank c = true)
    (hend : gap.getLast? = some '\n') (lineStart : Bool) (rest : List Char) :
    splitMacros lineStart (gap ++ rest) =
      ((splitMacros true rest).1, gap ++ (splitMacros true rest).2) := by
  obtain ⟨front, rfl⟩ := List.getLast?_eq_some_iff.mp hend
  have hsign : '#' ∉ front := fun hmem =>
    absurd (hblank '#' (List.mem_append_left _ hmem)) (by decide)
  rw [List.append_assoc, List.append_assoc]
  exact splitMacros_quiet (Or.inl hsign) lineStart rest

/-- The same macros and the same text but for their white space. -/
def AlikeButSpacing (p q : List Macro × List Char) : Prop :=
  p.1.map Macro.squeezed = q.1.map Macro.squeezed ∧ squeeze p.2 = squeeze q.2

/-- Blank lines put in behind a line that is not continued change only white space. -/
theorem splitMacros_insert (hblank : ∀ c ∈ gap, isBlank c = true)
    (hend : gap.getLast? = some '\n') {u : List Char} (h : ¬Continued (u ++ ['\n']))
    (lineStart : Bool) (rest : List Char) :
    AlikeButSpacing (splitMacros lineStart (u ++ '\n' :: (gap ++ rest)))
      (splitMacros lineStart (u ++ '\n' :: rest)) := by
  induction hlength : u.length using Nat.strong_induction_on generalizing u lineStart with
  | _ n ih =>
    -- Where no macro definition begins, the first character stays and the rest is shorter.
    have hstep (hinserted : lineStart = true → macro? (u ++ '\n' :: (gap ++ rest)) = none)
        (hplain : lineStart = true → macro? (u ++ '\n' :: rest) = none) :
        AlikeButSpacing (splitMacros lineStart (u ++ '\n' :: (gap ++ rest)))
          (splitMacros lineStart (u ++ '\n' :: rest)) := by
      cases u with
      | nil =>
        rw [List.nil_append] at hinserted hplain ⊢
        rw [List.nil_append, splitMacros_cons_none hinserted, splitMacros_cons_none hplain,
          splitMacros_gap hblank hend]
        exact ⟨rfl, Text.squeeze_gap (by decide) hblank _⟩
      | cons c v =>
        rw [List.cons_append] at hinserted hplain ⊢
        rw [List.cons_append, splitMacros_cons_none hinserted, splitMacros_cons_none hplain]
        obtain ⟨hmacros, htext⟩ := ih v.length (by rw [← hlength]; simp)
          (not_continued_of_append (u := [c]) h) (c = '\n') rfl
        exact ⟨hmacros, Text.squeeze_cons_congr c htext⟩
    cases lineStart with
    | false => exact hstep (fun hfalse => by cases hfalse) (fun hfalse => by cases hfalse)
    | true =>
      rcases macro?_insert hblank h rest with ⟨hinserted, hplain⟩ | ⟨m, w, v, hw, rfl, hread⟩ |
        ⟨m, n, further, hsame, hinserted, hplain⟩
      · exact hstep (fun _ => hinserted) (fun _ => hplain)
      · have hshort : v.length < n := by
          have hpos := List.length_pos_of_ne_nil hw
          rw [← hlength, List.length_append]
          omega
        have hv : ¬Continued (v ++ ['\n']) := by
          rw [List.append_assoc] at h
          exact not_continued_of_append h
        obtain ⟨hmacros, htext⟩ := ih v.length hshort hv false rfl
        rw [splitMacros_some (hread _), splitMacros_some (hread _)]
        exact ⟨by rw [List.map_cons, List.map_cons, hmacros], htext⟩
      · rw [splitMacros_some hinserted, splitMacros_some hplain]
        exact ⟨by rw [List.map_cons, List.map_cons, hsame], rfl⟩

/-! Definitions -/

/-- Blank lines put in behind a line that is not continued change no definition. -/
theorem definitions_insert_line (hblank : ∀ c ∈ gap, isBlank c = true)
    (hend : gap.getLast? = some '\n') {u : List Char} (h : ¬Continued (u ++ ['\n']))
    (rest : List Char) :
    definitions (u ++ '\n' :: (gap ++ rest)) = definitions (u ++ '\n' :: rest) := by
  obtain ⟨hmacros, htext⟩ := splitMacros_insert hblank hend h true rest
  exact filterMap_definition?_congr hmacros htext

theorem definitions_feed (cs : List Char) : definitions ('\n' :: cs) = definitions cs := by
  have hnone : true = true → macro? ('\n' :: cs) = none := fun _ =>
    macro?_quiet (u := []) (Or.inl List.not_mem_nil) cs
  have hbehind (ms : List Macro) (source : List Char) :
      definition? ms (some '\n', source) = definition? ms (none, source) := by
    have hword : isWordChar '\n' = false := by decide
    simp [definition?, Text.atWordEdge, hword]
  have hplaces (ms : List Macro) (source : List Char) :
      (Text.places none ('\n' :: source)).filterMap (definition? ms) =
        (Text.places none source).filterMap (definition? ms) := by
    rw [Text.places, List.filterMap_cons_none (definition?_of_not_word (by decide) source)]
    cases source with
    | nil => rfl
    | cons c source =>
      rw [Text.places, Text.places, List.filterMap_cons, List.filterMap_cons, hbehind]
  rw [definitions, definitions, splitMacros_cons_none hnone]
  exact hplaces _ _

/-- Blank lines behind whole lines change no definition, unless the last of these lines is
continued. -/
theorem definitions_insert (hblank : ∀ c ∈ gap, isBlank c = true)
    (hend : gap.getLast? = some '\n') {u : List Char} (hlines : WholeLines u)
    (h : ¬Continued u) (rest : List Char) :
    definitions (u ++ (gap ++ rest)) = definitions (u ++ rest) := by
  cases hlast : u.getLast? with
  | none =>
    -- At the very beginning an empty line can be thought of before the text.
    rw [List.getLast?_eq_none_iff.mp hlast, List.nil_append, List.nil_append,
      ← definitions_feed (gap ++ rest), ← definitions_feed rest]
    exact definitions_insert_line hblank hend (u := []) (by decide) rest
  | some c =>
    obtain ⟨front, rfl⟩ := List.getLast?_eq_some_iff.mp hlast
    obtain rfl : c = '\n' := hlines c hlast
    rw [List.append_assoc, List.append_assoc]
    exact definitions_insert_line hblank hend h rest

end Insert

end LayoutGuard.Header
