import LayoutGuard.Proofs.Header.MacroLines

/-!
Comments on lines of their own. Such a comment may be put in between any two lines that
lie outside of all comments, and a scan finds the same types. This asks that no line
comment holds the opener of a block comment, be it the new one or one before it, because
blocks are taken out first and such an opener reaches for the next closer. It also asks
that the line before is not continued once its comments are gone, and that the marker
stays within a line.
-/

namespace LayoutGuard.Header

open Text (isBlank)

/-- A comment of C. -/
inductive Comment
  | block (text : CommentText)
  | line (text : List Char) (no_feed : '\n' ∉ text)

def Comment.text : Comment → List Char
  | block c => '/' :: '*' :: (c.text ++ ['*', '/'])
  | line text _ => '/' :: '/' :: text

/-- A line comment does not hold the opener of a block comment. -/
def Comment.Plain : Comment → Prop
  | block _ => True
  | line text _ => ¬['/', '*'] <:+: '/' :: '/' :: text

/-- A text at whose end one is outside of all comments, and whose line comments hold no
opener of a block comment. -/
inductive Outside : List Char → Prop
  | nil : Outside []
  | char {c : Char} {cs : List Char} (no_line : ¬['/', '/'] <+: c :: cs)
      (no_block : ¬['/', '*'] <+: c :: cs) : Outside cs → Outside (c :: cs)
  | block (c : CommentText) {cs : List Char} :
      Outside cs → Outside ((Comment.block c).text ++ cs)
  | line {text cs : List Char} (no_feed : '\n' ∉ text)
      (plain : (Comment.line text no_feed).Plain) :
      Outside cs → Outside ((Comment.line text no_feed).text ++ '\n' :: cs)

/-! What is left of comments -/

theorem closed_of_no_opener {cs : List Char} (h : ¬['/', '*'] <:+: cs) : Closed cs := by
  rwa [Closed, stripBlocks_eq_self h]

theorem no_opener_feed {w cs : List Char} (hw : ¬['/', '*'] <:+: w) (hcs : ¬['/', '*'] <:+: cs) :
    ¬['/', '*'] <:+: w ++ '\n' :: cs := by
  induction w with
  | nil =>
    intro h
    rcases List.infix_cons_iff.mp h with h | h
    · exact absurd (List.cons_prefix_cons.mp h).1 (by decide)
    · exact hcs h
  | cons c w ih =>
    intro h
    rcases List.infix_cons_iff.mp h with h | h
    · obtain ⟨rfl, hstar⟩ := List.cons_prefix_cons.mp h
      cases w with
      | nil => exact absurd (List.cons_prefix_cons.mp hstar).1 (by decide)
      | cons d w =>
        obtain ⟨rfl, -⟩ := List.cons_prefix_cons.mp hstar
        exact hw ⟨[], w, rfl⟩
    · exact ih (fun hin => hw (hin.trans (List.suffix_cons c w).isInfix)) h

/-- Stripping blocks makes no star out of another character. -/
theorem star_prefix_of_stripBlocks {cs : List Char} (h : ['*'] <+: stripBlocks cs) :
    ['*'] <+: cs := by
  fun_induction stripBlocks cs with
  | case1 => exact h
  | case2 cs after hafter ih => exact absurd (List.cons_prefix_cons.mp h).1 (by decide)
  | case3 cs hafter => exact h
  | case4 c cs hother ih =>
    obtain ⟨rfl, -⟩ := List.cons_prefix_cons.mp h
    exact ⟨cs, rfl⟩

/-- A place outside of comments leaves none open. -/
theorem Outside.closed {u : List Char} (h : Outside u) : Closed u := by
  induction h with
  | nil => exact closed_of_no_opener (by decide)
  | @char c cs no_line no_block _ ih =>
    rw [Closed, stripBlocks_cons no_block]
    intro hin
    rcases List.infix_cons_iff.mp hin with hopen | hin
    · obtain ⟨rfl, hstar⟩ := List.cons_prefix_cons.mp hopen
      exact no_block (List.cons_prefix_cons.mpr ⟨rfl, star_prefix_of_stripBlocks hstar⟩)
    · exact ih hin
  | @block c cs _ ih =>
    have hstrip : stripBlocks ((Comment.block c).text ++ cs) = ' ' :: stripBlocks cs := by
      simp only [Comment.text, List.cons_append, List.append_assoc, List.nil_append]
      exact stripBlocks_comment c cs
    rw [Closed, hstrip]
    intro hin
    rcases List.infix_cons_iff.mp hin with hopen | hin
    · exact absurd (List.cons_prefix_cons.mp hopen).1 (by decide)
    · exact ih hin
  | @line text cs no_feed plain _ ih =>
    have hplain : ¬['/', '*'] <:+: (Comment.line text no_feed).text ++ ['\n'] :=
      no_opener_feed plain (by decide)
    have hend : ((Comment.line text no_feed).text ++ ['\n']).getLast? = some '\n' :=
      List.getLast?_concat
    have hstrip := stripBlocks_closed (closed_of_no_opener hplain) (wholeLines_of_feed hend) cs
    rw [stripBlocks_eq_self hplain, List.append_assoc, List.append_assoc] at hstrip
    rw [Closed]
    exact hstrip ▸ no_opener_feed plain ih

theorem stripLinesFrom_inside {w : List Char} (hw : '\n' ∉ w) (rest : List Char) :
    stripLinesFrom true (w ++ '\n' :: rest) = '\n' :: stripLinesFrom false rest := by
  induction w with
  | nil => rfl
  | cons c w ih =>
    rw [List.mem_cons, not_or] at hw
    rw [List.cons_append, stripLinesFrom, if_pos rfl, if_neg (Ne.symm hw.1), ih hw.2]

/-- Whole lines that hold nothing but comments and white space. -/
structure IdleLines (k : List Char) : Prop where
  closed : Closed k
  blank : ∀ c ∈ stripComments k, isBlank c = true
  ends : k.getLast? = some '\n'

/-- A comment on lines of its own leaves nothing but white space. -/
theorem idleLines_of_comment {k : Comment} (hplain : k.Plain) : IdleLines (k.text ++ ['\n']) := by
  cases k with
  | block c =>
    have hstrip : stripBlocks ((Comment.block c).text ++ ['\n']) = [' ', '\n'] := by
      simp only [Comment.text, List.cons_append, List.append_assoc, List.nil_append]
      rw [stripBlocks_comment, stripBlocks_eq_self (by decide)]
    refine ⟨?_, ?_, List.getLast?_concat⟩
    · rw [Closed, hstrip]
      decide
    · rw [stripComments, hstrip]
      exact List.all_eq_true.mp (by decide)
  | line text no_feed =>
    have hopen : ¬['/', '*'] <:+: (Comment.line text no_feed).text ++ ['\n'] :=
      no_opener_feed hplain (by decide)
    have hslash : '\n' ∉ '/' :: text := by simp [no_feed]
    have hstrip : stripComments ((Comment.line text no_feed).text ++ ['\n']) = ['\n'] := by
      rw [stripComments, stripBlocks_eq_self hopen]
      exact stripLinesFrom_inside hslash []
    refine ⟨closed_of_no_opener hopen, ?_, List.getLast?_concat⟩
    rw [hstrip]
    exact List.all_eq_true.mp (by decide)

/-! Scans -/

/-- Removing comments keeps the line feed at the end. -/
theorem wholeLines_stripComments {u : List Char} (h : WholeLines u) :
    WholeLines (stripComments u) := by
  cases hlast : u.getLast? with
  | none =>
    rw [List.getLast?_eq_none_iff.mp hlast, stripComments, stripBlocks]
    exact wholeLines_nil
  | some c =>
    obtain rfl : c = '\n' := h c hlast
    exact wholeLines_of_feed (getLast?_stripComments hlast)

/-- Lines that read as white space change no definition around them. -/
theorem definitions_insert_idle {k : List Char} (hk : IdleLines k) {u : List Char}
    (hlines : WholeLines u) (hclosed : Closed u) (hcontinued : ¬Continued (stripComments u))
    (v : List Char) :
    definitions (stripComments (u ++ (k ++ v))) = definitions (stripComments (u ++ v)) := by
  rw [stripComments_append hclosed hlines, stripComments_append hclosed hlines,
    stripComments_append hk.closed (wholeLines_of_feed hk.ends),
    definitions_insert hk.blank (getLast?_stripComments hk.ends) (wholeLines_stripComments hlines)
      hcontinued]

/-- A scan finds the same types when idle lines are put in. -/
theorem scan_insert_idle (s : LintSettings) {k : List Char} (hk : IdleLines k)
    (hmarker : ∀ mark, s.implementationMarker = some mark →
      '\n' ∉ mark.toList ∧ ¬mark.toList <:+: k)
    {u : List Char} (hlines : WholeLines u) (hclosed : Closed u)
    (hcontinued : ¬Continued (stripComments u)) (v : List Char) :
    scan s (String.ofList (u ++ (k ++ v))) = scan s (String.ofList (u ++ v)) := by
  rw [scan, scan, String.toList_ofList, String.toList_ofList]
  rcases publicPart_insert s hmarker hlines (wholeLines_of_feed hk.ends) v with
    hsame | ⟨v', hinserted, hplain⟩
  · rw [hsame]
  · rw [hinserted, hplain, definitions_insert_idle hk hlines hclosed hcontinued]

/-- A scan finds the same types when a comment is put in on a line of its own. -/
theorem scan_insert_comment (s : LintSettings) (k : Comment) (u v : List Char)
    (hlines : WholeLines u) (houtside : Outside u) (hcontinued : ¬Continued (stripComments u))
    (hplain : k.Plain)
    (hmarker : ∀ mark, s.implementationMarker = some mark →
      '\n' ∉ mark.toList ∧ ¬mark.toList <:+: k.text) :
    scan s (String.ofList (u ++ (k.text ++ '\n' :: v))) = scan s (String.ofList (u ++ v)) := by
  have hmarker' : ∀ mark, s.implementationMarker = some mark →
      '\n' ∉ mark.toList ∧ ¬mark.toList <:+: k.text ++ ['\n'] := by
    intro mark hmark
    obtain ⟨hfeed, habsent⟩ := hmarker mark hmark
    refine ⟨hfeed, fun hin => ?_⟩
    rcases List.infix_concat_iff.mp hin with hin | hin
    · rcases List.suffix_concat_iff.mp hin with hnil | ⟨front, hfront, -⟩
      · exact habsent (by rw [hnil]; exact List.nil_infix)
      · exact hfeed (by rw [hfront]; simp)
    · exact habsent hin
  have hinsert := scan_insert_idle s (idleLines_of_comment hplain) hmarker' hlines
    houtside.closed hcontinued v
  rwa [List.append_assoc, List.singleton_append] at hinsert

theorem outside_of_no_slash {u : List Char} (h : '/' ∉ u) : Outside u := by
  induction u with
  | nil => exact .nil
  | cons c u ih =>
    rw [List.mem_cons, not_or] at h
    exact .char (fun hopen => h.1 (List.cons_prefix_cons.mp hopen).1)
      (fun hopen => h.1 (List.cons_prefix_cons.mp hopen).1) (ih h.2)

/-- The comment goes between the parameters of a macro. -/
theorem scan_insert_comment_sample :
    let u := "#define DECLARE(name,\n".toList
    let k := Comment.line " the size".toList (by decide)
    let v := " size) struct nk_##name \x7bint a[size];\x7d;\nDECLARE(pair, 2)\n".toList
    WholeLines u ∧ k.Plain ∧
      scan .default (String.ofList (u ++ (k.text ++ '\n' :: v))) =
        [⟨⟨.struct, "nk_pair"⟩, none⟩] := by
  intro u k v
  have hlines : WholeLines u := wholeLines_of_feed (by decide)
  have houtside : Outside u := outside_of_no_slash (by decide)
  have hcontinued : ¬Continued (stripComments u) := by decide +kernel
  have hplain : k.Plain := by
    change ¬['/', '*'] <:+: '/' :: '/' :: " the size".toList
    decide
  have hmarker : ∀ mark, LintSettings.default.implementationMarker = some mark →
      '\n' ∉ mark.toList ∧ ¬mark.toList <:+: k.text := by
    rintro mark ⟨⟩
    decide +kernel
  refine ⟨hlines, hplain, ?_⟩
  rw [scan_insert_comment .default k u v hlines houtside hcontinued hplain hmarker]
  decide +kernel

/-- The line comment `// /*` reaches for the closer of a later block comment, and the
struct between them is lost. -/
theorem not_scan_insert_every_comment :
    ¬∀ (k : Comment) (u v : List Char), WholeLines u → Outside u → ¬Continued u →
      ¬"#ifdef NK_IMPLEMENTATION".toList <:+: k.text →
      scan .default (String.ofList (u ++ (k.text ++ '\n' :: v))) =
        scan .default (String.ofList (u ++ v)) := by
  intro h
  have hsame := h (.line " /*".toList (by decide)) []
    "struct nk_a \x7bint x;\x7d;\n/* c */\n".toList wholeLines_nil .nil (by decide)
    (by decide +kernel)
  exact absurd hsame (by decide +kernel)

end LayoutGuard.Header
