import Mathlib.Data.Option.Basic
import LayoutGuard.Header.Scan
import LayoutGuard.Proofs.Header.Body

/-!
The places where definitions begin. Without macros, only words and white space stand
between such a place and the brace that opens a body, and they are more than one word.
So a scan finds nothing inside a body, and beyond its braces it goes on as if it started
there.
-/

namespace LayoutGuard.Header

open Text (isWordChar isBlank)

/-! What a definition begins with -/

/-- The text `rest` stands behind words and white space. -/
def BehindWords (cs rest : List Char) : Prop :=
  ∃ u, cs = u ++ rest ∧ ∀ c ∈ u, isWordChar c = true ∨ isBlank c = true

theorem BehindWords.trans {cs ds es : List Char} (hcs : BehindWords cs ds)
    (hds : BehindWords ds es) : BehindWords cs es := by
  obtain ⟨u, rfl, hu⟩ := hcs
  obtain ⟨v, rfl, hv⟩ := hds
  refine ⟨u ++ v, (List.append_assoc u v es).symm, ?_⟩
  intro c hc
  rcases List.mem_append.mp hc with hc | hc
  · exact hu c hc
  · exact hv c hc

theorem BehindWords.skipBlanks (cs : List Char) : BehindWords cs (Text.skipBlanks cs) := by
  obtain ⟨gap, hsplit, hgap⟩ := Text.exists_blanks cs
  exact ⟨gap, hsplit, fun c hc => Or.inr (hgap c hc)⟩

theorem BehindWords.of_name? {cs name rest : List Char}
    (h : Text.name? cs = some (name, rest)) : BehindWords cs rest := by
  obtain ⟨rfl, -, hname⟩ := Text.exists_name_of_name? h
  exact ⟨name, rfl, fun c hc => Or.inl (hname c hc)⟩

theorem plain_of_word {w : List Char} (hw : ∀ c ∈ w, isWordChar c = true) :
    ∀ c ∈ w, (isWordChar c || isBlank c) = true :=
  fun c hc => by rw [hw c hc, Bool.true_or]

theorem plain_of_blank {gap : List Char} (hgap : ∀ c ∈ gap, isBlank c = true) :
    ∀ c ∈ gap, (isWordChar c || isBlank c) = true :=
  fun c hc => by rw [hgap c hc, Bool.or_true]

theorem not_mem_of_plain {u : List Char} (hu : ∀ c ∈ u, (isWordChar c || isBlank c) = true)
    {d : Char} (hd : (isWordChar d || isBlank d) = false) : d ∉ u :=
  Text.not_mem_of_all (List.all_eq_true.mpr hu) hd

/-- Words and white space do not reach across another sign. -/
theorem not_behindWords {u : List Char} {d e : Char} (hd : (isWordChar d || isBlank d) = false)
    (hu : e ∉ u) (hne : d ≠ e) (rest ds : List Char) :
    ¬BehindWords (u ++ d :: rest) (e :: ds) := by
  rintro ⟨v, hsplit, hv⟩
  rcases List.append_eq_append_iff.mp hsplit with ⟨w, rfl, hw⟩ | ⟨w, rfl, hw⟩
  · cases w with
    | nil =>
      cases hw
      exact hne rfl
    | cons c w =>
      cases hw
      have hplain := hv d (by simp)
      rw [← Bool.or_eq_true, hd] at hplain
      cases hplain
  · cases w with
    | nil =>
      cases hw
      exact hne rfl
    | cons c w =>
      cases hw
      exact hu (by simp)

/-- What stands before the brace of a definition: a word, a blank, and more words. -/
structure Head where
  first : List Char
  blank : Char
  further : List Char
  first_ne_nil : first ≠ []
  isWordChar_first : ∀ c ∈ first, isWordChar c = true
  isBlank_blank : isBlank blank = true
  plain_further : ∀ c ∈ further, isWordChar c = true ∨ isBlank c = true
  exists_word : ∃ c ∈ further, isWordChar c = true

def Head.text (h : Head) : List Char :=
  h.first ++ h.blank :: h.further

theorem Head.plain (h : Head) : ∀ c ∈ h.text, (isWordChar c || isBlank c) = true := by
  intro c hc
  rw [Bool.or_eq_true]
  rcases List.mem_append.mp hc with hc | hc
  · exact Or.inl (h.isWordChar_first c hc)
  · rcases List.mem_cons.mp hc with rfl | hc
    · exact Or.inr h.isBlank_blank
    · exact h.plain_further c hc

/-- The head of a definition is words and white space up to its brace. -/
theorem Head.behindWords (h : Head) (rest : List Char) : BehindWords (h.text ++ rest) rest :=
  ⟨h.text, rfl, fun c hc => (Bool.or_eq_true _ _).mp (h.plain c hc)⟩

theorem exists_head {w cs ds rest : List Char} {c : Char} (hnil : w ≠ [])
    (hw : ∀ d ∈ w, isWordChar d = true) (hblanks : Text.blanks? cs = some (c :: ds))
    (hc : isWordChar c = true) (hbehind : BehindWords (c :: ds) ('\x7b' :: rest)) :
    ∃ head : Head, w ++ cs = head.text ++ '\x7b' :: rest := by
  obtain ⟨blank, gap, rfl, hblank, hgap⟩ := Text.exists_blanks_of_blanks? hblanks
  obtain ⟨u, hsplit, hu⟩ := hbehind
  cases u with
  | nil =>
    cases hsplit
    exact absurd hc (by decide)
  | cons e u =>
    cases hsplit
    refine ⟨⟨w, blank, gap ++ c :: u, hnil, hw, hblank, ?_, c, by simp, hc⟩, by simp [Head.text]⟩
    intro d hd
    rcases List.mem_append.mp hd with hd | hd
    · exact Or.inr (hgap d hd)
    · exact hu d hd

theorem exists_composite {cs rest : List Char} {kind : CType.Kind}
    (h : compositeKeyword? cs = some (kind, rest)) :
    ∃ k : Composite, kind = k.kind ∧ cs = k.keyword ++ rest := by
  rw [compositeKeyword?] at h
  split at h
  · rename_i hread
    cases h
    exact ⟨.struct, rfl, Text.literal?_eq_some_iff.mp hread⟩
  · obtain ⟨rest', hread, heq⟩ := Option.map_eq_some_iff.mp h
    cases heq
    exact ⟨.union, rfl, Text.literal?_eq_some_iff.mp hread⟩

theorem compositeKeyword?_of_not_word {c : Char} (hc : isWordChar c = false) (cs : List Char) :
    compositeKeyword? (c :: cs) = none := by
  refine Option.eq_none_iff_forall_ne_some.mpr fun found hread => ?_
  obtain ⟨k, -, hsplit⟩ := exists_composite hread
  obtain ⟨d, keyword, hkeyword⟩ := List.exists_cons_of_ne_nil k.keyword_ne_nil
  have hword := k.isWordChar_keyword d (by rw [hkeyword]; exact List.mem_cons_self)
  rw [hkeyword] at hsplit
  cases hsplit
  rw [hc] at hword
  cases hword

/-- What is read as the head of a tagged definition has the form of one. -/
theorem exists_head_of_taggedHead? {cs : List Char} {t : CType} (h : taggedHead? cs = some t) :
    ∃ (head : Head) (rest : List Char), cs = head.text ++ '\x7b' :: rest := by
  simp only [taggedHead?, Option.bind_eq_bind, Option.bind_eq_some_iff] at h
  obtain ⟨⟨kind, cs₁⟩, hkeyword, cs₂, hblanks, ⟨name, cs₃⟩, hname, rest, hbrace, -⟩ := h
  obtain ⟨k, -, rfl⟩ := exists_composite hkeyword
  have hbehind : BehindWords cs₂ ('\x7b' :: rest) := by
    rw [← Text.char?_eq_some_iff.mp hbrace]
    exact (BehindWords.of_name? hname).trans (BehindWords.skipBlanks cs₃)
  obtain ⟨rfl, hnil, hword⟩ := Text.exists_name_of_name? hname
  cases name with
  | nil => exact absurd rfl hnil
  | cons c name =>
    obtain ⟨head, hhead⟩ := exists_head k.keyword_ne_nil k.isWordChar_keyword hblanks
      (hword c List.mem_cons_self) hbehind
    exact ⟨head, rest, hhead⟩

/-- A typedef begins like a head, with words up to a brace. -/
theorem exists_head_of_typedef? {cs : List Char} {t : String × Option String}
    (h : typedef? cs = some t) :
    ∃ (head : Head) (rest : List Char), cs = head.text ++ '\x7b' :: rest := by
  simp only [typedef?, Option.bind_eq_bind, Option.bind_eq_some_iff, Option.guard_eq_some',
    List.head?_eq_some_iff] at h
  obtain ⟨cs₁, hword, cs₂, hblanks, ⟨kind, cs₃⟩, hkeyword, -, ⟨rest, hbrace⟩, -⟩ := h
  obtain rfl := Text.literal?_eq_some_iff.mp hword
  obtain ⟨k, -, rfl⟩ := exists_composite hkeyword
  have hkind : BehindWords (k.keyword ++ cs₃) cs₃ :=
    ⟨k.keyword, rfl, fun c hc => Or.inl (k.isWordChar_keyword c hc)⟩
  have htag : BehindWords cs₃ ('\x7b' :: rest) := by
    rw [← hbrace]
    refine (BehindWords.skipBlanks cs₃).trans (BehindWords.trans ?_ (BehindWords.skipBlanks _))
    cases hname : Text.name? (Text.skipBlanks cs₃) with
    | none => exact ⟨[], rfl, by simp⟩
    | some found => exact BehindWords.of_name? hname
  obtain ⟨c, keyword, hcons⟩ := List.exists_cons_of_ne_nil k.keyword_ne_nil
  rw [hcons] at hblanks hkind
  have hc : isWordChar c = true := k.isWordChar_keyword c (by rw [hcons]; exact List.mem_cons_self)
  obtain ⟨head, hhead⟩ := exists_head (w := "typedef".toList) (by decide)
    (List.all_eq_true.mp (by decide)) hblanks hc (hkind.trans htag)
  exact ⟨head, rest, hhead⟩

/-- Neither a typedef nor a tagged type is read where no head stands before a brace. -/
theorem unread_of_no_head {cs : List Char}
    (h : ∀ (head : Head) (rest : List Char), cs ≠ head.text ++ '\x7b' :: rest) :
    typedef? cs = none ∧ taggedHead? cs = none := by
  constructor
  · refine Option.eq_none_iff_forall_ne_some.mpr fun t hread => ?_
    obtain ⟨head, rest, hsplit⟩ := exists_head_of_typedef? hread
    exact h head rest hsplit
  · refine Option.eq_none_iff_forall_ne_some.mpr fun t hread => ?_
    obtain ⟨head, rest, hsplit⟩ := exists_head_of_taggedHead? hread
    exact h head rest hsplit

theorem stamped?_nil (cs : List Char) : stamped? [] cs = none := by
  cases h : stamped? [] cs with
  | none => rfl
  | some t =>
    simp only [stamped?, Option.bind_eq_bind, Option.bind_eq_some_iff] at h
    obtain ⟨_, _, _, _, _, _, _, htemplate, _⟩ := h
    cases htemplate

variable {before : Option Char} {cs : List Char}

/-- Without macros a definition begins only where words lead up to a brace. -/
theorem definition?_eq_none
    (h : ∀ (head : Head) (rest : List Char), cs ≠ head.text ++ '\x7b' :: rest) :
    definition? [] (before, cs) = none := by
  obtain ⟨htypedef, htagged⟩ := unread_of_no_head h
  rw [definition?, htypedef, htagged, stamped?_nil]
  split <;> rfl

/-- No definition begins inside a word. -/
theorem definition?_within_word {ms : List Macro} {b c : Char} (hb : isWordChar b = true)
    (hc : isWordChar c = true) (cs : List Char) : definition? ms (some b, c :: cs) = none := by
  have hedge : Text.atWordEdge (some b) (c :: cs) = false := by
    simp [Text.atWordEdge, hb, hc]
  rw [definition?, hedge]
  rfl

/-- A definition begins with a word, whatever the macros are. -/
theorem definition?_of_not_word {ms : List Macro} {c : Char} (hc : isWordChar c = false)
    (cs : List Char) : definition? ms (before, c :: cs) = none := by
  have hhead (head : Head) (rest : List Char) : c :: cs ≠ head.text ++ '\x7b' :: rest := by
    intro hsplit
    obtain ⟨d, first, hfirst⟩ := List.exists_cons_of_ne_nil head.first_ne_nil
    have hd : isWordChar d = true :=
      head.isWordChar_first d (by rw [hfirst]; exact List.mem_cons_self)
    rw [Head.text, hfirst] at hsplit
    cases hsplit
    rw [hc] at hd
    cases hd
  obtain ⟨htypedef, htagged⟩ := unread_of_no_head hhead
  have hstamped : stamped? ms (c :: cs) = none := by
    rw [stamped?, Text.name?, Text.isNameStart_of_isWordChar hc]
    rfl
  rw [definition?, htypedef, htagged, hstamped]
  split <;> rfl

/-- The text of a plain member begins no definition. -/
theorem definition?_member {u : List Char} (hu : '\x7b' ∉ u) (rest : List Char) :
    definition? [] (before, u ++ ';' :: rest) = none := by
  refine definition?_eq_none fun head rest' hsplit => ?_
  have hbehind := head.behindWords ('\x7b' :: rest')
  rw [← hsplit] at hbehind
  exact not_behindWords (by decide) hu (by decide) rest rest' hbehind

/-- A word before a brace begins no definition on its own. -/
theorem definition?_last_word {w gap : List Char} (hw : ∀ c ∈ w, isWordChar c = true)
    (hgap : ∀ c ∈ gap, isBlank c = true) (rest : List Char) :
    definition? [] (before, w ++ (gap ++ '\x7b' :: rest)) = none := by
  refine definition?_eq_none fun head rest' hsplit => ?_
  have hplain : ∀ c ∈ w ++ gap, (isWordChar c || isBlank c) = true :=
    List.forall_mem_append.mpr ⟨plain_of_word hw, plain_of_blank hgap⟩
  rw [← List.append_assoc] at hsplit
  -- The word and the gap are all of the head, so no second word is left for it.
  obtain ⟨hhead, -⟩ := Text.eq_of_stop hplain (by decide) head.plain (by decide) hsplit
  have hblank := Text.isWordChar_of_isBlank head.isBlank_blank
  cases gap with
  | nil =>
    rw [List.append_nil] at hhead
    have hword := hw head.blank (by rw [hhead, Head.text]; simp)
    rw [hblank] at hword
    cases hword
  | cons g gap =>
    obtain ⟨-, hfurther⟩ := Text.eq_of_stop hw
      (Text.isWordChar_of_isBlank (hgap g List.mem_cons_self)) head.isWordChar_first hblank hhead
    obtain ⟨c, hc, hword⟩ := head.exists_word
    have hmem : c ∈ g :: gap := by
      rw [hfurther]
      exact List.mem_cons_of_mem _ hc
    rw [Text.isWordChar_of_isBlank (hgap c hmem)] at hword
    cases hword

/-! Where no macro is invoked -/

/-- An invocation is words and white space up to a parenthesis. -/
theorem behindWords_of_stamped? {ms : List Macro} {t : CType} (h : stamped? ms cs = some t) :
    ∃ rest, BehindWords cs ('(' :: rest) := by
  simp only [stamped?, Option.bind_eq_bind, Option.bind_eq_some_iff] at h
  obtain ⟨⟨name, cs₁⟩, hname, cs₂, hopen, -⟩ := h
  refine ⟨cs₂, ?_⟩
  rw [← Text.char?_eq_some_iff.mp hopen]
  exact (BehindWords.of_name? hname).trans (BehindWords.skipBlanks cs₁)

/-- A sign before the next parenthesis keeps a word from being an invocation. -/
theorem stamped?_eq_none {ms : List Macro} {u : List Char} {d : Char}
    (hd : (isWordChar d || isBlank d) = false) (hu : '(' ∉ u) (hne : d ≠ '(')
    (rest : List Char) : stamped? ms (u ++ d :: rest) = none := by
  refine Option.eq_none_iff_forall_ne_some.mpr fun t hread => ?_
  obtain ⟨rest', hbehind⟩ := behindWords_of_stamped? hread
  exact not_behindWords hd hu hne rest rest' hbehind

theorem definition?_of_unstamped {ms : List Macro} (h : stamped? ms cs = none) :
    definition? ms (before, cs) = definition? [] (before, cs) := by
  rw [definition?, definition?, h, stamped?_nil]

/-- Nothing begins in a text that a sign ends before the next brace or parenthesis. -/
theorem definition?_quiet {ms : List Macro} {u : List Char} {d : Char}
    (hd : (isWordChar d || isBlank d) = false) (hbrace : '\x7b' ∉ u) (hparen : '(' ∉ u)
    (hne : d ≠ '\x7b') (hne' : d ≠ '(') (rest : List Char) :
    definition? ms (before, u ++ d :: rest) = none := by
  rw [definition?_of_unstamped (stamped?_eq_none hd hparen hne' rest)]
  refine definition?_eq_none fun head rest' hsplit => ?_
  have hbehind := head.behindWords ('\x7b' :: rest')
  rw [← hsplit] at hbehind
  exact not_behindWords hd hbrace hne rest rest' hbehind

/-- Where a parenthesis comes before the next brace, only an invocation can begin. -/
theorem definition?_of_parenthesis {ms : List Macro} {u : List Char} (hu : '\x7b' ∉ u)
    (rest : List Char) (hedge : Text.atWordEdge before (u ++ '(' :: rest) = true) :
    definition? ms (before, u ++ '(' :: rest) =
      (stamped? ms (u ++ '(' :: rest)).map Definition.stamped := by
  have hhead (head : Head) (rest' : List Char) :
      u ++ '(' :: rest ≠ head.text ++ '\x7b' :: rest' := by
    intro hsplit
    have hbehind := head.behindWords ('\x7b' :: rest')
    rw [← hsplit] at hbehind
    exact not_behindWords (by decide) hu (by decide) rest rest' hbehind
  obtain ⟨htypedef, htagged⟩ := unread_of_no_head hhead
  rw [definition?, hedge, htypedef, htagged]
  rfl

/-! What a scan finds -/

section Found

variable {ms : List Macro}

def found (ms : List Macro) (before : Option Char) (cs : List Char) : List Definition :=
  (Text.places before cs).filterMap (definition? ms)

theorem found_cons (before : Option Char) (c : Char) (cs : List Char) :
    found ms before (c :: cs) =
      (definition? ms (before, c :: cs)).toList ++ found ms (some c) cs := by
  rw [found, Text.places, List.filterMap_cons]
  cases definition? ms (before, c :: cs) <;> rfl

/-- A character that is no part of a word is forgotten by the search. -/
theorem found_behind {c : Char} (hc : isWordChar c = false) (cs : List Char) :
    found ms (some c) cs = found ms none cs := by
  cases cs with
  | nil => rfl
  | cons d cs =>
    have hedge : Text.atWordEdge (some c) (d :: cs) = Text.atWordEdge none (d :: cs) := by
      simp [Text.atWordEdge, hc]
    rw [found_cons, found_cons, definition?, definition?, hedge]

theorem found_sign {c : Char} (hc : isWordChar c = false) (cs : List Char) :
    found ms before (c :: cs) = found ms none cs := by
  rw [found_cons, definition?_of_not_word hc, found_behind hc]
  rfl

theorem found_within_word {b d : Char} {w : List Char} (hb : isWordChar b = true)
    (hw : ∀ c ∈ w, isWordChar c = true) (hd : isWordChar d = false) (rest : List Char) :
    found ms (some b) (w ++ d :: rest) = found ms none rest := by
  induction w generalizing b with
  | nil => exact found_sign hd rest
  | cons c w ih =>
    have hc := hw c List.mem_cons_self
    rw [List.cons_append, found_cons, definition?_within_word hb hc,
      ih hc fun e he => hw e (List.mem_cons_of_mem c he)]
    rfl

/-- Only the beginning of a word can be the place of a definition. -/
theorem found_word {d : Char} {w : List Char} (hnil : w ≠ [])
    (hw : ∀ c ∈ w, isWordChar c = true) (hd : isWordChar d = false) (rest : List Char) :
    found ms before (w ++ d :: rest) =
      (definition? ms (before, w ++ d :: rest)).toList ++ found ms none rest := by
  obtain ⟨c, w, rfl⟩ := List.exists_cons_of_ne_nil hnil
  rw [List.cons_append, found_cons, found_within_word (hw c List.mem_cons_self)
    (fun e he => hw e (List.mem_cons_of_mem c he)) hd]

/-- A text without braces and parentheses defines nothing, up to a sign that is neither. -/
theorem found_quiet {u : List Char} {d : Char} (hd : (isWordChar d || isBlank d) = false)
    (hbrace : '\x7b' ∉ u) (hparen : '(' ∉ u) (hne : d ≠ '\x7b') (hne' : d ≠ '(')
    (rest : List Char) : found ms before (u ++ d :: rest) = found ms none rest := by
  induction u generalizing before with
  | nil => exact found_sign (Bool.or_eq_false_iff.mp hd).1 rest
  | cons c u ih =>
    rw [List.mem_cons, not_or] at hbrace hparen
    have hhere : definition? ms (before, c :: u ++ d :: rest) = none :=
      definition?_quiet hd (by simp [hbrace]) (by simp [hparen]) hne hne' rest
    rw [List.cons_append] at hhere ⊢
    rw [found_cons, hhere, ih hbrace.2 hparen.2]
    rfl

theorem found_gap {gap : List Char} (hgap : ∀ c ∈ gap, isWordChar c = false) (cs : List Char) :
    found ms none (gap ++ cs) = found ms none cs := by
  induction gap with
  | nil => rfl
  | cons c gap ih =>
    rw [List.cons_append, found_sign (hgap c List.mem_cons_self),
      ih fun d hd => hgap d (List.mem_cons_of_mem c hd)]

/-- At a word that white space follows there is one place to look at. -/
theorem found_word_break {w gap : List Char} (hnil : w ≠ []) (hw : ∀ c ∈ w, isWordChar c = true)
    (hgapNil : gap ≠ []) (hgap : ∀ c ∈ gap, isBlank c = true) (cs : List Char) :
    found ms before (w ++ (gap ++ cs)) =
      (definition? ms (before, w ++ (gap ++ cs))).toList ++ found ms none cs := by
  obtain ⟨g, gs, rfl⟩ := List.exists_cons_of_ne_nil hgapNil
  have hsigns : ∀ c ∈ g :: gs, isWordChar c = false := fun c hc =>
    Text.isWordChar_of_isBlank (hgap c hc)
  rw [List.cons_append, found_word hnil hw (hsigns g List.mem_cons_self),
    found_gap fun c hc => hsigns c (List.mem_cons_of_mem g hc)]

/-- A word with a sign behind it, and maybe white space before the sign. -/
theorem found_word_sign {w gap : List Char} {d : Char} (hnil : w ≠ [])
    (hw : ∀ c ∈ w, isWordChar c = true) (hgap : ∀ c ∈ gap, isBlank c = true)
    (hd : isWordChar d = false) (rest : List Char) :
    found ms before (w ++ (gap ++ d :: rest)) =
      (definition? ms (before, w ++ (gap ++ d :: rest))).toList ++ found ms none rest := by
  by_cases hgapNil : gap = []
  · subst hgapNil
    exact found_word hnil hw hd rest
  · rw [found_word_break hnil hw hgapNil hgap, found_sign hd]

/-- A word before a brace is no definition on its own. -/
theorem found_last_word {w gap : List Char} (hnil : w ≠ []) (hw : ∀ c ∈ w, isWordChar c = true)
    (hgap : ∀ c ∈ gap, isBlank c = true) (rest : List Char) :
    found ms before (w ++ (gap ++ '\x7b' :: rest)) = found ms none rest := by
  have hparen : '(' ∉ w ++ gap := not_mem_of_plain
    (List.forall_mem_append.mpr ⟨plain_of_word hw, plain_of_blank hgap⟩) (by decide)
  have hstamped : stamped? ms (w ++ gap ++ '\x7b' :: rest) = none :=
    stamped?_eq_none (by decide) hparen (by decide) rest
  rw [List.append_assoc] at hstamped
  rw [found_word_sign hnil hw hgap (by decide), definition?_of_unstamped hstamped,
    definition?_last_word hw hgap]
  rfl

end Found

def definitionsFrom (before : Option Char) (cs : List Char) : List Definition :=
  (Text.places before cs).filterMap (definition? [])

theorem definitionsFrom_cons (before : Option Char) (c : Char) (cs : List Char) :
    definitionsFrom before (c :: cs) =
      (definition? [] (before, c :: cs)).toList ++ definitionsFrom (some c) cs :=
  found_cons before c cs

theorem definitionsFrom_sign {c : Char} (hc : isWordChar c = false) (cs : List Char) :
    definitionsFrom before (c :: cs) = definitionsFrom none cs :=
  found_sign hc cs

theorem definitionsFrom_gap {gap : List Char} (hgap : ∀ c ∈ gap, isWordChar c = false)
    (cs : List Char) : definitionsFrom none (gap ++ cs) = definitionsFrom none cs :=
  found_gap hgap cs

theorem definitionsFrom_word {d : Char} {w : List Char} (hnil : w ≠ [])
    (hw : ∀ c ∈ w, isWordChar c = true) (hd : isWordChar d = false) (rest : List Char) :
    definitionsFrom before (w ++ d :: rest) =
      (definition? [] (before, w ++ d :: rest)).toList ++ definitionsFrom none rest :=
  found_word hnil hw hd rest

/-- A word right before a brace begins no definition. -/
theorem definitionsFrom_last_word {w : List Char} (hnil : w ≠ [])
    (hw : ∀ c ∈ w, isWordChar c = true) (rest : List Char) :
    definitionsFrom before (w ++ ' ' :: '\x7b' :: rest) = definitionsFrom none rest :=
  @found_last_word before [] w [' '] hnil hw (List.all_eq_true.mp (by decide)) rest

/-- A member of a body defines nothing. -/
theorem definitionsFrom_member {u : List Char} (hu : '\x7b' ∉ u) (rest : List Char) :
    definitionsFrom before (u ++ ';' :: rest) = definitionsFrom none rest := by
  induction u generalizing before with
  | nil => exact definitionsFrom_sign (by decide) rest
  | cons c u ih =>
    have hrest : '\x7b' ∉ u := fun h => hu (List.mem_cons_of_mem c h)
    rw [List.cons_append, definitionsFrom_cons, ih hrest, ← List.cons_append,
      definition?_member hu]
    rfl

theorem open_brace_not_mem_name (n : Identifier) : '\x7b' ∉ ' ' :: n.text := by
  simp only [List.mem_cons, not_or]
  exact ⟨by decide, fun h => (braceless_of_isNameRest (n.isNameRest _ h)).1 rfl⟩

/-- Nothing is found inside a body. -/
theorem definitionsFrom_body (b : Body) (rest : List Char) :
    definitionsFrom none (b.text ++ '\x7d' :: rest) = definitionsFrom none rest := by
  induction b generalizing rest with
  | done gap =>
    rw [Body.text, definitionsFrom_gap fun c hc => Text.isWordChar_of_isBlank (gap.blank c hc),
      definitionsFrom_sign (by decide)]
  | field member body ih =>
    have hplain : '\x7b' ∉ member.text := fun h => (member.plain _ h).1 rfl
    rw [Body.text, List.append_assoc, List.cons_append, definitionsFrom_member hplain, ih]
  | nested gap kind inner name body ihInner ihBody =>
    simp only [Body.text, List.append_assoc, List.cons_append]
    rw [definitionsFrom_gap fun c hc => Text.isWordChar_of_isBlank (gap.blank c hc),
      definitionsFrom_last_word kind.keyword_ne_nil kind.isWordChar_keyword, ihInner,
      ← List.cons_append, definitionsFrom_member (open_brace_not_mem_name name), ihBody]

end LayoutGuard.Header
