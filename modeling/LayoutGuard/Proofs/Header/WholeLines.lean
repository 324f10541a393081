import LayoutGuard.Proofs.Header.Comment
import LayoutGuard.Proofs.Text.Squeeze

/-!
Texts of whole lines. The comments of such a text are taken out of it on their own, as
long as it leaves no block comment open, and the public part of a header does not end in
the middle of it when the marker stays within a line.
-/

namespace LayoutGuard.Header

/-- A text that is empty or ends in a line feed. -/
def WholeLines (cs : List Char) : Prop :=
  ∀ c ∈ cs.getLast?, c = '\n'

theorem wholeLines_nil : WholeLines [] := by
  rintro c ⟨⟩

theorem WholeLines.of_append {u cs : List Char} (h : WholeLines (u ++ cs)) : WholeLines cs := by
  intro c hc
  refine h c ?_
  rw [List.getLast?_append, hc, Option.some_or]
  rfl

theorem wholeLines_of_feed {cs : List Char} (h : cs.getLast? = some '\n') : WholeLines cs := by
  rintro c hc
  rw [h] at hc
  exact (Option.some.inj hc).symm

/-! Block comments -/

theorem afterClose_append {cs rest : List Char} (h : afterClose cs = some rest) (tail : List Char) :
    afterClose (cs ++ tail) = some (rest ++ tail) := by
  fun_induction afterClose cs with
  | case1 => cases h
  | case2 cs =>
    cases h
    rfl
  | case3 c cs hother ih =>
    rw [List.cons_append, afterClose.eq_def]
    split
    · rename_i heq
      cases heq
    · rename_i further heq
      exfalso
      cases cs with
      | nil => cases h
      | cons d ds =>
        cases heq
        exact hother ds rfl rfl
    · rename_i heq
      cases heq
      exact ih h

theorem afterClose_suffix {cs rest : List Char} (h : afterClose cs = some rest) : rest <:+ cs := by
  fun_induction afterClose cs with
  | case1 => cases h
  | case2 cs =>
    cases h
    exact ⟨['*', '/'], rfl⟩
  | case3 c cs _ ih => exact (ih h).trans (List.suffix_cons c cs)

/-- No block comment is left open at the end of a text. -/
def Closed (cs : List Char) : Prop :=
  ¬['/', '*'] <:+: stripBlocks cs

theorem not_open_append {c : Char} {u : List Char} (hopen : ¬['/', '*'] <+: c :: u)
    (hlines : WholeLines (c :: u)) (rest : List Char) : ¬['/', '*'] <+: c :: (u ++ rest) := by
  intro h
  obtain ⟨rfl, hstar⟩ := List.cons_prefix_cons.mp h
  cases u with
  | nil => exact absurd (hlines '/' rfl) (by decide)
  | cons d u =>
    obtain ⟨rfl, -⟩ := List.cons_prefix_cons.mp hstar
    exact hopen ⟨u, rfl⟩

/-- Block comments are removed part by part when none is open in between. -/
theorem stripBlocks_closed {u : List Char} (hclosed : Closed u) (hlines : WholeLines u)
    (rest : List Char) : stripBlocks (u ++ rest) = stripBlocks u ++ stripBlocks rest := by
  fun_induction stripBlocks u with
  | case1 => rfl
  | case2 cs after hafter ih =>
    rw [Closed, stripBlocks_open hafter] at hclosed
    obtain ⟨gone, rfl⟩ := afterClose_suffix hafter
    have hin : Closed after := fun h => hclosed (h.trans (List.suffix_cons ' ' _).isInfix)
    have hend : WholeLines after := WholeLines.of_append (u := '/' :: '*' :: gone) hlines
    rw [List.cons_append, List.cons_append, stripBlocks_open (afterClose_append hafter rest),
      ih hin hend, List.cons_append]
  | case3 cs hafter =>
    rw [Closed, stripBlocks_unclosed hafter] at hclosed
    exact absurd ⟨[], cs, rfl⟩ hclosed
  | case4 c cs hother ih =>
    have hopen : ¬['/', '*'] <+: c :: cs := by
      rintro ⟨tail, htail⟩
      cases htail
      exact hother tail rfl rfl
    rw [Closed, stripBlocks_cons hopen] at hclosed
    have hin : Closed cs := fun h => hclosed (h.trans (List.suffix_cons c _).isInfix)
    have hend : WholeLines cs := WholeLines.of_append (u := [c]) hlines
    rw [List.cons_append, stripBlocks_cons (not_open_append hopen hlines rest), ih hin hend,
      List.cons_append]

theorem getLast?_of_afterClose {cs rest : List Char} (h : afterClose cs = some rest) :
    cs.getLast? = some (rest.getLast?.getD '/') := by
  fun_induction afterClose cs with
  | case1 => cases h
  | case2 cs =>
    cases h
    simp [List.getLast?_cons]
  | case3 c cs _ ih => rw [List.getLast?_cons, ih h, Option.getD_some]

theorem getLast?_stripBlocks {u : List Char} (hend : u.getLast? = some '\n') :
    (stripBlocks u).getLast? = some '\n' := by
  fun_induction stripBlocks u with
  | case1 => cases hend
  | case2 cs after hafter ih =>
    rw [List.getLast?_cons, List.getLast?_cons, getLast?_of_afterClose hafter] at hend
    cases hlast : after.getLast? with
    | none =>
      rw [hlast] at hend
      exact absurd hend (by decide)
    | some d =>
      rw [hlast] at hend
      rw [List.getLast?_cons, ih (hlast.trans hend)]
      rfl
  | case3 cs hafter => exact hend
  | case4 c cs hother ih =>
    cases hlast : cs.getLast? with
    | none =>
      rw [List.getLast?_eq_none_iff.mp hlast] at hend ⊢
      rw [stripBlocks]
      exact hend
    | some d =>
      rw [List.getLast?_cons, hlast] at hend
      rw [List.getLast?_cons, ih (hlast.trans hend)]
      rfl

/-! Line comments -/

/-- Line comments are removed part by part when the first part ends a line. -/
theorem stripLinesFrom_append {u : List Char} (hend : u.getLast? = some '\n') (inside : Bool)
    (rest : List Char) :
    stripLinesFrom inside (u ++ rest) = stripLinesFrom inside u ++ stripLinesFrom false rest := by
  induction u generalizing inside with
  | nil => cases hend
  | cons c cs ih =>
    cases cs with
    | nil =>
      cases hend
      cases inside <;> rfl
    | cons d ds =>
      rw [List.getLast?_cons_cons] at hend
      rw [List.cons_append, stripLinesFrom, stripLinesFrom, ih hend, ih hend,
        List.cons_append, List.head?_cons, List.head?_cons]
      split <;> split <;> rfl

theorem getLast?_stripLinesFrom {u : List Char} (hend : u.getLast? = some '\n') (inside : Bool) :
    (stripLinesFrom inside u).getLast? = some '\n' := by
  induction u generalizing inside with
  | nil => cases hend
  | cons c cs ih =>
    cases cs with
    | nil =>
      cases hend
      cases inside <;> rfl
    | cons d ds =>
      rw [List.getLast?_cons_cons] at hend
      rw [stripLinesFrom]
      split <;> split <;> simp [List.getLast?_cons, ih hend]

/-- Whole lines that leave no block comment open are stripped on their own. -/
theorem stripComments_append {u : List Char} (hclosed : Closed u) (hlines : WholeLines u)
    (rest : List Char) : stripComments (u ++ rest) = stripComments u ++ stripComments rest := by
  rw [stripComments, stripBlocks_closed hclosed hlines]
  cases hlast : u.getLast? with
  | none =>
    rw [List.getLast?_eq_none_iff.mp hlast, stripComments, stripBlocks]
    rfl
  | some c =>
    have hend : u.getLast? = some '\n' := by rw [hlast, hlines c hlast]
    rw [stripLinesFrom_append (getLast?_stripBlocks hend)]
    rfl

theorem getLast?_stripComments {u : List Char} (hend : u.getLast? = some '\n') :
    (stripComments u).getLast? = some '\n' :=
  getLast?_stripLinesFrom (getLast?_stripBlocks hend) false

theorem stripBlocks_eq_self {cs : List Char} (h : ¬['/', '*'] <:+: cs) : stripBlocks cs = cs := by
  induction cs with
  | nil => rw [stripBlocks]
  | cons c cs ih =>
    rw [stripBlocks_cons fun hopen => h hopen.isInfix,
      ih fun hin => h (hin.trans (List.suffix_cons c cs).isInfix)]

/-! The public part -/

variable {mark u : List Char}

theorem before_append_of_mark (hmark : mark ≠ []) (hin : mark <:+: u) (rest : List Char) :
    Text.before mark (u ++ rest) = Text.before mark u := by
  induction u with
  | nil => exact absurd (List.infix_nil.mp hin) hmark
  | cons c u ih =>
    by_cases hhere : mark <+: c :: u
    · have hbefore : mark <+: c :: (u ++ rest) := hhere.trans (List.prefix_append (c :: u) rest)
      rw [List.cons_append, Text.before, Text.before, List.isPrefixOf_iff_prefix.mpr hhere,
        List.isPrefixOf_iff_prefix.mpr hbefore]
      rfl
    · have hrest : mark <:+: u := (List.infix_cons_iff.mp hin).resolve_left hhere
      -- A marker that reaches beyond the text is longer than one within it.
      have hbefore : ¬mark <+: c :: (u ++ rest) := by
        intro h
        rcases List.prefix_or_prefix_of_prefix h (List.prefix_append (c :: u) rest) with h | h
        · exact hhere h
        · have hlong := h.length_le
          have hshort := hrest.length_le
          rw [List.length_cons] at hlong
          omega
      have hfalse {ds : List Char} (h : ¬mark <+: ds) : mark.isPrefixOf ds = false := by
        simpa [← List.isPrefixOf_iff_prefix] using h
      rw [List.cons_append, Text.before, Text.before, hfalse hhere, hfalse hbefore, ih hrest]

/-- A marker of one line is not brought about by lines put in front of it. -/
theorem before_lines (hfeed : '\n' ∉ mark) (hlines : WholeLines u) (habsent : ¬mark <:+: u)
    (rest : List Char) : Text.before mark (u ++ rest) = u ++ Text.before mark rest := by
  refine before_append rest fun v hv hsuffix => not_prefix_of_lines hfeed ?_ ?_
  · obtain ⟨w, rfl⟩ := hsuffix
    rw [List.getLast?_eq_some_getLast hv, hlines.of_append _ (List.getLast?_eq_some_getLast hv)]
  · exact fun h => habsent (h.trans hsuffix.isInfix)

/-- Lines that do not hold the marker can be put in without moving the end of the public
part, unless it lies before them. -/
theorem publicPart_insert (s : LintSettings) {k : List Char}
    (hmarker : ∀ mark, s.implementationMarker = some mark →
      '\n' ∉ mark.toList ∧ ¬mark.toList <:+: k)
    (hu : WholeLines u) (hk : WholeLines k) (v : List Char) :
    publicPart s (u ++ (k ++ v)) = publicPart s (u ++ v) ∨
      ∃ v', publicPart s (u ++ (k ++ v)) = u ++ (k ++ v') ∧ publicPart s (u ++ v) = u ++ v' := by
  simp only [publicPart]
  cases hset : s.implementationMarker with
  | none => exact Or.inr ⟨v, rfl, rfl⟩
  | some mark =>
    obtain ⟨hfeed, habsent⟩ := hmarker mark hset
    have hmark : mark.toList ≠ [] := fun h => habsent (by rw [h]; exact List.nil_infix)
    dsimp only
    by_cases hin : mark.toList <:+: u
    · exact Or.inl (by rw [before_append_of_mark hmark hin, before_append_of_mark hmark hin])
    · refine Or.inr ⟨Text.before mark.toList v, ?_, before_lines hfeed hu hin v⟩
      rw [before_lines hfeed hu hin, before_lines hfeed hk habsent]

end LayoutGuard.Header
