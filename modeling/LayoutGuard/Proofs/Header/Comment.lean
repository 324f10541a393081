import Mathlib.Data.List.Infix
import LayoutGuard.Header.Scan
import LayoutGuard.Proofs.Header.Body

/-!
Comments, macro definitions and the end of the public part. A block comment leaves one
space behind and all other text stays, a text without number signs holds no macro
definition, and the public part ends before the first marker.
-/

namespace LayoutGuard.Header

/-! Comments -/

/-- The text of a block comment, which does not end the comment. -/
structure CommentText where
  text : List Char
  open_ended : ¬['*', '/'] <:+: text

/-- A comment that does not hold its closer goes up to the first closer. -/
theorem afterClose_of_comment {cs : List Char} (h : ¬['*', '/'] <:+: cs) (rest : List Char) :
    afterClose (cs ++ '*' :: '/' :: rest) = some rest := by
  induction cs with
  | nil => rfl
  | cons c cs ih =>
    have hrest : ¬['*', '/'] <:+: cs := fun hin => h (hin.trans (List.infix_cons List.infix_rfl))
    rw [List.cons_append, afterClose.eq_def]
    split
    · rename_i heq
      cases heq
    · rename_i tail heq
      -- A star at the end of the comment's text is followed by a star, not by a slash.
      exfalso
      cases cs with
      | nil => simp at heq
      | cons d ds =>
        simp only [List.cons_append, List.cons.injEq] at heq
        obtain ⟨rfl, rfl, -⟩ := heq
        exact h ⟨[], ds, rfl⟩
    · rename_i tail _ heq
      cases heq
      exact ih hrest

theorem stripBlocks_opener (cs : List Char) : stripBlocks ('/' :: '*' :: cs) =
    match afterClose cs with
    | some rest => ' ' :: stripBlocks rest
    | none => '/' :: '*' :: cs := by
  rw [stripBlocks.eq_def]
  split
  · rename_i heq
    cases heq
  · rename_i tail heq
    simp only [List.cons.injEq, true_and] at heq
    subst heq
    split <;> rename_i hafter <;> rw [hafter]
  · rename_i hother heq
    cases heq
    exact absurd rfl (hother _ rfl)

theorem stripBlocks_open {cs rest : List Char} (h : afterClose cs = some rest) :
    stripBlocks ('/' :: '*' :: cs) = ' ' :: stripBlocks rest := by
  rw [stripBlocks_opener, h]

theorem stripBlocks_unclosed {cs : List Char} (h : afterClose cs = none) :
    stripBlocks ('/' :: '*' :: cs) = '/' :: '*' :: cs := by
  rw [stripBlocks_opener, h]

theorem stripBlocks_cons {c : Char} {cs : List Char} (h : ¬['/', '*'] <+: c :: cs) :
    stripBlocks (c :: cs) = c :: stripBlocks cs := by
  rw [stripBlocks.eq_def]
  split
  · rename_i heq
    cases heq
  · rename_i tail heq
    rw [heq] at h
    exact absurd ⟨tail, rfl⟩ h
  · rename_i heq
    cases heq
    rfl

/-- A block comment reads as a space. -/
theorem stripBlocks_comment (c : CommentText) (rest : List Char) :
    stripBlocks ('/' :: '*' :: (c.text ++ '*' :: '/' :: rest)) = ' ' :: stripBlocks rest :=
  stripBlocks_open (afterClose_of_comment c.open_ended rest)

/-- A text without a slash in it stays when comments are removed. -/
theorem stripBlocks_append {u : List Char} (hu : '/' ∉ u) (rest : List Char) :
    stripBlocks (u ++ rest) = u ++ stripBlocks rest := by
  induction u with
  | nil => rfl
  | cons c u ih =>
    rw [List.mem_cons, not_or] at hu
    have hopen : ¬['/', '*'] <+: c :: (u ++ rest) := fun h => hu.1 (List.cons_prefix_cons.mp h).1
    rw [List.cons_append, stripBlocks_cons hopen, ih hu.2, List.cons_append]

theorem stripLinesFrom_eq_self {u : List Char} (hu : '/' ∉ u) : stripLinesFrom false u = u := by
  induction u with
  | nil => rfl
  | cons c u ih =>
    rw [List.mem_cons, not_or] at hu
    rw [stripLinesFrom]
    simp [Ne.symm hu.1, ih hu.2]

theorem stripComments_eq_self {u : List Char} (hu : '/' ∉ u) : stripComments u = u := by
  have hblocks : stripBlocks u = u := by
    have happend := stripBlocks_append hu []
    rwa [List.append_nil, stripBlocks, List.append_nil] at happend
  rw [stripComments, hblocks, stripLinesFrom_eq_self hu]

/-! Macro definitions -/

theorem macro?_eq_none {cs : List Char} (hcs : '#' ∉ cs) : macro? cs = none := by
  have hsign : ∀ p : Char → Bool, Text.char? '#' (cs.dropWhile p) = none := by
    intro p
    cases hread : Text.char? '#' (cs.dropWhile p) with
    | none => rfl
    | some rest =>
      have hmem : '#' ∈ cs := (List.dropWhile_sublist p).subset (by
        rw [Text.char?_eq_some_iff.mp hread]
        exact List.mem_cons_self)
      exact absurd hmem hcs
  rw [macro?, hsign]
  rfl

/-- A text without the sign of directives has no macro definitions. -/
theorem splitMacros_eq_self {u : List Char} (hu : '#' ∉ u) (lineStart : Bool) :
    splitMacros lineStart u = ([], u) := by
  induction u generalizing lineStart with
  | nil => rw [splitMacros]
  | cons c u ih =>
    have hnone : (if lineStart = true then macro? (c :: u) else none) = none := by
      rw [macro?_eq_none hu, ite_self]
    rw [splitMacros.eq_def]
    dsimp only
    split
    · rename_i heq
      rw [hnone] at heq
      cases heq
    · rw [ih fun h => hu (List.mem_cons_of_mem c h)]

/-! The public part -/

/-- The text up to the marker runs over all that does not bring the marker about. -/
theorem before_append {mark u : List Char} (tail : List Char)
    (h : ∀ v, v ≠ [] → v <:+ u → ¬mark <+: v ++ tail) :
    Text.before mark (u ++ tail) = u ++ Text.before mark tail := by
  induction u with
  | nil => rfl
  | cons c u ih =>
    have hhere : ¬mark <+: (c :: u) ++ tail := h (c :: u) (List.cons_ne_nil c u) List.suffix_rfl
    have hhere' : mark.isPrefixOf (c :: (u ++ tail)) = false := by
      simpa [← List.isPrefixOf_iff_prefix] using hhere
    rw [List.cons_append, Text.before, hhere', List.cons_append,
      ih fun v hv hsuffix => h v hv (hsuffix.trans (List.suffix_cons c u))]
    rfl

/-- Without the marker a header is public as a whole. -/
theorem publicPart_eq_self {s : LintSettings} {cs : List Char}
    (hmarker : ∀ mark, s.implementationMarker = some mark → ¬mark.toList <:+: cs) :
    publicPart s cs = cs := by
  rw [publicPart]
  cases hset : s.implementationMarker with
  | none => rfl
  | some mark =>
    have hbefore : Text.before mark.toList (cs ++ []) = cs ++ Text.before mark.toList [] := by
      refine before_append [] fun v _ hv hbegins => ?_
      rw [List.append_nil] at hbegins
      exact hmarker mark hset (hbegins.isInfix.trans hv.isInfix)
    rwa [List.append_nil, Text.before, List.append_nil] at hbefore

theorem before_mark {mark : List Char} (hmark : mark ≠ []) (rest : List Char) :
    Text.before mark (mark ++ rest) = [] := by
  cases mark with
  | nil => exact absurd rfl hmark
  | cons c mark =>
    have hprefix : (c :: mark).isPrefixOf (c :: (mark ++ rest)) = true := by
      rw [List.isPrefixOf_iff_prefix]
      exact List.prefix_append (c :: mark) rest
    rw [List.cons_append, Text.before, hprefix]
    rfl

/-- A marker without line feeds cannot reach from complete lines into what follows. -/
theorem not_prefix_of_lines {mark v tail : List Char} (hfeed : '\n' ∉ mark)
    (hv : v.getLast? = some '\n') (hwithin : ¬mark <:+: v) : ¬mark <+: v ++ tail := by
  intro hprefix
  rcases List.prefix_or_prefix_of_prefix hprefix (List.prefix_append v tail) with h | h
  · exact hwithin h.isInfix
  · exact hfeed (h.subset (List.mem_of_getLast? hv))

end LayoutGuard.Header
