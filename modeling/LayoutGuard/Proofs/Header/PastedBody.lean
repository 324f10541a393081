import LayoutGuard.Proofs.Header.Definition
import LayoutGuard.Proofs.Header.MacroLines
import LayoutGuard.Proofs.Text.Places

/-!
Bodies of macros that define a struct or union with a pasted name. The keyword and the
pieces of the name are read off such a body, but only if no line is continued between the
keyword and the brace: a backslash there is no white space, and nothing is read at all.
-/

namespace LayoutGuard.Header

open Text (isBlank isWordChar isNameRest)

/-! Pasted names -/

/-- A piece of a pasted name behind the first one. -/
structure Piece where
  text : List Char
  ne_nil : text ≠ []
  all_name : text.all isNameRest = true

/-- A name of several pieces with the paste operator between them. -/
structure PastedName where
  first : Identifier
  more : List Piece
  more_ne_nil : more ≠ []

def PastedName.pieces (n : PastedName) : List (List Char) :=
  n.first.text :: n.more.map Piece.text

def pastedText (pieces : List Piece) : List Char :=
  pieces.flatMap fun p => '#' :: '#' :: p.text

def PastedName.text (n : PastedName) : List Char :=
  n.first.text ++ pastedText n.more

theorem sign_not_mem_of_names {u : List Char} (hu : ∀ c ∈ u, isNameRest c = true) : '#' ∉ u :=
  sign_not_mem fun c hc => unsigned_of_isNameRest (hu c hc)

theorem Piece.isNameRest (p : Piece) : ∀ c ∈ p.text, Text.isNameRest c = true :=
  List.all_eq_true.mp p.all_name

theorem PastedName.ne_nil_of_mem (n : PastedName) : ∀ piece ∈ n.pieces, piece ≠ [] := by
  intro piece hpiece
  rcases List.mem_cons.mp hpiece with rfl | hpiece
  · exact n.first.ne_nil
  · obtain ⟨p, -, rfl⟩ := List.mem_map.mp hpiece
    exact p.ne_nil

theorem isPasteChar_of_isNameRest {c : Char} (hc : isNameRest c = true) : isPasteChar c = true := by
  rw [isPasteChar, Text.isWordChar_of_isNameRest hc, Bool.true_or]

theorem PastedName.isPasteChar (n : PastedName) : ∀ c ∈ n.text, Header.isPasteChar c = true := by
  intro c hc
  rcases List.mem_append.mp hc with hc | hc
  · exact isPasteChar_of_isNameRest (n.first.isNameRest c hc)
  · obtain ⟨p, -, hp⟩ := List.mem_flatMap.mp hc
    rcases List.mem_cons.mp hp with rfl | hp
    · rfl
    rcases List.mem_cons.mp hp with rfl | hp
    · rfl
    · exact isPasteChar_of_isNameRest (p.isNameRest c hp)

theorem splitPaste_cons {c : Char} (hc : c ≠ '#') {cs p : List Char} {ps : List (List Char)}
    (h : splitPaste cs = p :: ps) : splitPaste (c :: cs) = (c :: p) :: ps := by
  rw [splitPaste, h]
  rintro _ rfl
  exact absurd rfl hc

theorem splitPaste_append {u : List Char} (hu : '#' ∉ u) (rest : List Char) :
    splitPaste (u ++ '#' :: '#' :: rest) = u :: splitPaste rest := by
  induction u with
  | nil => rfl
  | cons c u ih =>
    rw [List.mem_cons, not_or] at hu
    exact splitPaste_cons (Ne.symm hu.1) (ih hu.2)

theorem splitPaste_eq_singleton {u : List Char} (hu : '#' ∉ u) : splitPaste u = [u] := by
  induction u with
  | nil => rfl
  | cons c u ih =>
    rw [List.mem_cons, not_or] at hu
    exact splitPaste_cons (Ne.symm hu.1) (ih hu.2)

/-- Cutting at the paste operator gives the pieces back. -/
theorem splitPaste_pasted {u : List Char} (hu : '#' ∉ u) (pieces : List Piece) :
    splitPaste (u ++ pastedText pieces) = u :: pieces.map Piece.text := by
  induction pieces generalizing u with
  | nil => rw [pastedText, List.flatMap_nil, List.append_nil, splitPaste_eq_singleton hu]; rfl
  | cons p pieces ih =>
    rw [pastedText, List.flatMap_cons, ← pastedText, List.cons_append, List.cons_append,
      splitPaste_append hu, ih (sign_not_mem_of_names p.isNameRest), List.map_cons]

theorem PastedName.splitPaste_text (n : PastedName) : splitPaste n.text = n.pieces :=
  splitPaste_pasted (sign_not_mem_of_names n.first.isNameRest) n.more

theorem hasPaste_append (u rest : List Char) : hasPaste (u ++ '#' :: '#' :: rest) = true := by
  induction u with
  | nil => rfl
  | cons c u ih =>
    rw [List.cons_append, hasPaste.eq_def]
    split
    · rfl
    · rename_i heq
      cases heq
      exact ih
    · rename_i heq
      cases heq

theorem PastedName.hasPaste_text (n : PastedName) : hasPaste n.text = true := by
  obtain ⟨p, more, hmore⟩ := List.exists_cons_of_ne_nil n.more_ne_nil
  rw [PastedName.text, hmore, pastedText, List.flatMap_cons, List.cons_append, List.cons_append]
  exact hasPaste_append n.first.text _

/-! Bodies with a pasted name -/

/-- A character of a body that opens and closes nothing and is part of no comment. -/
def isInner (c : Char) : Bool :=
  c != '\x7b' && c != '\x7d' && c != '(' && c != ')' && c != '/'

/-- White space between the words of a macro's body, where a backslash may continue a line. -/
structure Joint where
  text : List Char
  all_joint : text.all (fun c => isBlank c || c = '\\') = true

theorem Joint.isPasteChar (j : Joint) : ∀ c ∈ j.text, Header.isPasteChar c = false := by
  intro c hc
  have hjoint := List.all_eq_true.mp j.all_joint c hc
  rw [Bool.or_eq_true, decide_eq_true_iff] at hjoint
  rcases hjoint with hblank | rfl
  · exact isPasteChar_of_isBlank hblank
  · decide

theorem Joint.isWordChar (j : Joint) : ∀ c ∈ j.text, Text.isWordChar c = false :=
  fun c hc => (Bool.or_eq_false_iff.mp (j.isPasteChar c hc)).1

theorem Joint.blank {j : Joint} (hj : '\\' ∉ j.text) : ∀ c ∈ j.text, isBlank c = true := by
  intro c hc
  have hjoint := List.all_eq_true.mp j.all_joint c hc
  rw [Bool.or_eq_true, decide_eq_true_iff] at hjoint
  refine hjoint.resolve_right fun hslash => ?_
  rw [hslash] at hc
  exact hj hc

theorem Joint.open_brace_not_mem (j : Joint) : '\x7b' ∉ j.text :=
  Text.not_mem_of_all j.all_joint (by decide)

/-- The body of a macro that defines a struct or union with a pasted name. -/
structure PastedBody where
  lead : Joint
  kind : Composite
  gap : Joint
  gap_ne_nil : gap.text ≠ []
  name : PastedName
  space : Joint
  fields : List Char
  all_inner : fields.all isInner = true

def PastedBody.head (b : PastedBody) : List Char :=
  b.lead.text ++ (b.kind.keyword ++ (b.gap.text ++ (b.name.text ++ b.space.text)))

def PastedBody.text (b : PastedBody) : List Char :=
  b.head ++ '\x7b' :: (b.fields ++ ['\x7d'])

/-- No line is continued between the keyword and the brace. -/
def PastedBody.Straight (b : PastedBody) : Prop :=
  '\\' ∉ b.gap.text ∧ '\\' ∉ b.space.text

instance (b : PastedBody) : Decidable b.Straight :=
  inferInstanceAs (Decidable (_ ∧ _))

theorem pastedHead?_of_not_word {before : Option Char} {c : Char} (hc : isWordChar c = false)
    (cs : List Char) : pastedHead? (before, c :: cs) = none := by
  simp [pastedHead?, compositeKeyword?_of_not_word hc]

/-- The head of a definition with a pasted name is read as the kind and the pieces. -/
theorem pastedHead?_text {before : Option Char} (hbefore : before.any isWordChar = false)
    (k : Composite) (n : PastedName) {gap gap' : List Char} (hnil : gap ≠ [])
    (hgap : ∀ c ∈ gap, isBlank c = true) (hgap' : ∀ c ∈ gap', isBlank c = true)
    (rest : List Char) :
    pastedHead? (before, k.keyword ++ (gap ++ (n.text ++ (gap' ++ '\x7b' :: rest)))) =
      some (k.kind, n.pieces) := by
  have hedge (cs : List Char) : Text.atWordEdge before (k.keyword ++ cs) = true := by
    rw [Text.atWordEdge, hbefore]
    cases k <;> rfl
  have hblanks : Text.blanks? (gap ++ (n.text ++ (gap' ++ '\x7b' :: rest))) =
      some (n.text ++ (gap' ++ '\x7b' :: rest)) := by
    rw [PastedName.text, List.append_assoc]
    exact Text.blanks?_gap_word hnil hgap n.first.ne_nil n.first.isWordChar _
  have hstarts : (n.text ++ (gap' ++ '\x7b' :: rest)).head?.any Text.isNameStart = true := by
    have hfirst := n.first.tag.starts
    obtain ⟨c, cs, hcons⟩ := List.exists_cons_of_ne_nil n.first.ne_nil
    rw [show n.first.tag.text = n.first.text from rfl, hcons] at hfirst
    rw [PastedName.text, hcons]
    exact hfirst
  have hsign : isPasteChar '\x7b' = false := by decide
  obtain ⟨d, tail, htail, hd⟩ := Text.exists_sign
    (fun c hc => isPasteChar_of_isBlank (hgap' c hc)) hsign rest
  have hbrace : Text.skipBlanks (d :: tail) = '\x7b' :: rest := by
    rw [← htail, Text.skipBlanks_gap hgap', Text.skipBlanks_of_not_blank (by decide)]
  rw [htail] at hblanks hstarts ⊢
  simp only [pastedHead?, hedge, compositeKeyword?_keyword, hblanks, hstarts, guard,
    Text.takeWhile_stop n.isPasteChar hd, Text.dropWhile_stop n.isPasteChar hd, n.hasPaste_text,
    hbrace, n.splitPaste_text, if_true, Option.bind_eq_bind, Option.pure_def, Option.bind_some]
  rfl

/-- What is read behind signs and white space is read first. -/
theorem findSome?_pastedHead? {u cs : List Char} {found : CType.Kind × List (List Char)}
    (hu : ∀ c ∈ u, isWordChar c = false) (hnil : cs ≠ [])
    (hread : ∀ before, before.any isWordChar = false → pastedHead? (before, cs) = some found)
    {before : Option Char} (hbefore : before.any isWordChar = false) :
    (Text.places before (u ++ cs)).findSome? pastedHead? = some found := by
  induction u generalizing before with
  | nil =>
    obtain ⟨c, cs, rfl⟩ := List.exists_cons_of_ne_nil hnil
    rw [List.nil_append, Text.places, List.findSome?_cons, hread before hbefore]
  | cons c u ih =>
    have hc := hu c List.mem_cons_self
    rw [List.cons_append, Text.places, List.findSome?_cons, pastedHead?_of_not_word hc]
    exact ih (fun d hd => hu d (List.mem_cons_of_mem c hd)) hc

theorem PastedBody.findSome?_of_straight {b : PastedBody} (h : b.Straight) :
    (Text.places none b.text).findSome? pastedHead? = some (b.kind.kind, b.name.pieces) := by
  have hsplit : b.text = b.lead.text ++ (b.kind.keyword ++ (b.gap.text ++
      (b.name.text ++ (b.space.text ++ '\x7b' :: (b.fields ++ ['\x7d']))))) := by
    simp only [PastedBody.text, PastedBody.head, List.append_assoc]
  rw [hsplit]
  refine findSome?_pastedHead? b.lead.isWordChar ?_ ?_ rfl
  · exact List.append_ne_nil_of_left_ne_nil b.kind.keyword_ne_nil _
  · intro before hbefore
    exact pastedHead?_text hbefore b.kind b.name b.gap_ne_nil (Joint.blank h.1) (Joint.blank h.2) _

/-! A line continued before the brace -/

/-- What is read as the head of a definition with a pasted name: a word, a blank, and a
further word or paste operator before the brace. -/
structure PastedHead where
  first : List Char
  blank : Char
  further : List Char
  first_ne_nil : first ≠ []
  isWordChar_first : ∀ c ∈ first, isWordChar c = true
  isBlank_blank : isBlank blank = true
  plain_further : ∀ c ∈ further, isPasteChar c = true ∨ isBlank c = true
  exists_paste : ∃ c ∈ further, isPasteChar c = true

def PastedHead.text (h : PastedHead) : List Char :=
  h.first ++ h.blank :: h.further

theorem PastedHead.plain (h : PastedHead) :
    ∀ c ∈ h.text, isPasteChar c = true ∨ isBlank c = true := by
  intro c hc
  rcases List.mem_append.mp hc with hc | hc
  · exact Or.inl (by rw [isPasteChar, h.isWordChar_first c hc, Bool.true_or])
  · rcases List.mem_cons.mp hc with rfl | hc
    · exact Or.inr h.isBlank_blank
    · exact h.plain_further c hc

theorem PastedHead.not_mem (h : PastedHead) {c : Char} (hpaste : isPasteChar c = false)
    (hblank : isBlank c = false) : c ∉ h.text := by
  intro hc
  rcases h.plain c hc with hplain | hplain
  · rw [hpaste] at hplain
    cases hplain
  · rw [hblank] at hplain
    cases hplain

/-- What is read as such a head has the form of one, up to its brace. -/
theorem exists_head_of_pastedHead? {before : Option Char} {cs : List Char}
    {found : CType.Kind × List (List Char)} (h : pastedHead? (before, cs) = some found) :
    ∃ (head : PastedHead) (rest : List Char), cs = head.text ++ '\x7b' :: rest := by
  simp only [pastedHead?, Option.bind_eq_bind, Option.bind_eq_some_iff, Option.guard_eq_some'] at h
  obtain ⟨-, -, ⟨kind, cs₁⟩, hkeyword, cs₂, hblanks, -, hstarts, -, -, rest, hbrace, -⟩ := h
  obtain ⟨k, -, rfl⟩ := exists_composite hkeyword
  obtain ⟨blank, gap, rfl, hblank, hgap⟩ := Text.exists_blanks_of_blanks? hblanks
  obtain ⟨gap', hsplit, hgap'⟩ := Text.exists_blanks (cs₂.dropWhile isPasteChar)
  rw [Text.char?_eq_some_iff.mp hbrace] at hsplit
  obtain ⟨c, cs₃, rfl, hc⟩ : ∃ c cs₃, cs₂ = c :: cs₃ ∧ isPasteChar c = true := by
    cases cs₂ with
    | nil => cases hstarts
    | cons c cs₃ =>
      have hname : isNameRest c = true := by
        rw [isNameRest, show Text.isNameStart c = true from hstarts, Bool.true_or]
      exact ⟨c, cs₃, rfl, isPasteChar_of_isNameRest hname⟩
  refine ⟨⟨k.keyword, blank, gap ++ ((c :: cs₃).takeWhile isPasteChar ++ gap'), k.keyword_ne_nil,
    k.isWordChar_keyword, hblank, ?_, c, ?_, hc⟩, rest, ?_⟩
  · intro d hd
    rcases List.mem_append.mp hd with hd | hd
    · exact Or.inr (hgap d hd)
    rcases List.mem_append.mp hd with hd | hd
    · exact Or.inl (List.mem_takeWhile_imp hd)
    · exact Or.inr (hgap' d hd)
  · simp [List.takeWhile_cons_of_pos hc]
  · rw [PastedHead.text, List.append_assoc, List.cons_append, List.append_assoc, List.append_assoc,
      ← hsplit, List.takeWhile_append_dropWhile]

theorem PastedBody.open_brace_not_mem_head (b : PastedBody) : '\x7b' ∉ b.head := by
  simp only [PastedBody.head, List.mem_append, not_or]
  refine ⟨b.lead.open_brace_not_mem, fun h => ?_, b.gap.open_brace_not_mem, fun h => ?_,
    b.space.open_brace_not_mem⟩
  · exact absurd (b.kind.isWordChar_keyword _ h) (by decide)
  · exact absurd (b.name.isPasteChar _ h) (by decide)

theorem PastedBody.open_brace_not_mem_fields (b : PastedBody) : '\x7b' ∉ b.fields :=
  Text.not_mem_of_all b.all_inner (by decide)

/-- A head that is read in a body stands before its one brace. -/
theorem PastedBody.suffix_head {b : PastedBody} {head : PastedHead} {rest : List Char}
    (h : head.text ++ '\x7b' :: rest <:+ b.text) : head.text <:+ b.head := by
  obtain ⟨front, hfront⟩ := h
  have hcount : b.text.count '\x7b' = 1 := by
    simp [PastedBody.text, List.count_eq_zero_of_not_mem b.open_brace_not_mem_head,
      List.count_eq_zero_of_not_mem b.open_brace_not_mem_fields]
  -- The brace behind the head is the only one, so none is left for what stands before it.
  have hfree : '\x7b' ∉ front := by
    rw [← hfront] at hcount
    simp only [List.count_append, List.count_cons_self] at hcount
    exact List.count_eq_zero.mp (by omega)
  have hplain {u : List Char} (hu : '\x7b' ∉ u) : ∀ c ∈ u, (c != '\x7b') = true := fun c hc => by
    simpa using fun heq : c = '\x7b' => hu (heq ▸ hc)
  have hbefore : '\x7b' ∉ front ++ head.text := by
    rw [List.mem_append, not_or]
    exact ⟨hfree, head.not_mem (by decide) (by decide)⟩
  rw [PastedBody.text, ← List.append_assoc] at hfront
  exact ⟨front, (Text.eq_of_stop (hplain hbefore) (by decide) (hplain b.open_brace_not_mem_head)
    (by decide) hfront).1⟩

/-- A word does not begin within signs and white space. -/
theorem suffix_of_suffix_append {u v w : List Char} {c : Char} (hu : ∀ d ∈ u, isPasteChar d = false)
    (hc : isPasteChar c = true) (h : c :: w <:+ u ++ v) : c :: w <:+ v := by
  rcases List.suffix_or_suffix_of_suffix h (List.suffix_append u v) with hin | ⟨front, hfront⟩
  · exact hin
  · cases front with
    | nil =>
      rw [← hfront]
      exact List.suffix_rfl
    | cons d front =>
      cases hfront
      obtain ⟨before, hbefore⟩ := h
      have hsplit : (before ++ c :: front) ++ v = u ++ v := by simpa using hbefore
      have hwhole : before ++ c :: front = u := List.append_cancel_right hsplit
      rw [hu c (by rw [← hwhole]; simp)] at hc
      cases hc

/-- Beyond the gap behind the keyword there is only one word before the brace. -/
theorem PastedBody.not_suffix (b : PastedBody) (head : PastedHead) :
    ¬head.text <:+ b.gap.text ++ (b.name.text ++ b.space.text) := by
  intro h
  obtain ⟨c, first, hfirst⟩ := List.exists_cons_of_ne_nil head.first_ne_nil
  have hc : isPasteChar c = true := by
    rw [isPasteChar, head.isWordChar_first c (by rw [hfirst]; exact List.mem_cons_self),
      Bool.true_or]
  have htext : head.text = c :: (first ++ head.blank :: head.further) := by
    rw [PastedHead.text, hfirst, List.cons_append]
  rw [htext] at h
  have hname := suffix_of_suffix_append b.gap.isPasteChar hc h
  have hblank : isPasteChar head.blank = false := isPasteChar_of_isBlank head.isBlank_blank
  have hfirst' : ∀ d ∈ head.first, isPasteChar d = true := fun d hd => by
    rw [isPasteChar, head.isWordChar_first d hd, Bool.true_or]
  rcases List.suffix_or_suffix_of_suffix hname (List.suffix_append b.name.text b.space.text) with
    hspace | ⟨front, hfront⟩
  · rw [← List.append_nil b.space.text] at hspace
    exact absurd (List.suffix_nil.mp (suffix_of_suffix_append b.space.isPasteChar hc hspace))
      (List.cons_ne_nil c _)
  · -- The word in front of the space reaches up to the blank, and behind it is the space.
    have hword : ∀ d ∈ front, isPasteChar d = true := by
      obtain ⟨before, hbefore⟩ := hname
      rw [← hfront, ← List.append_assoc] at hbefore
      intro d hd
      refine b.name.isPasteChar d ?_
      rw [← List.append_cancel_right hbefore]
      exact List.mem_append_right before hd
    rw [← htext, PastedHead.text] at hfront
    cases hspace : b.space.text with
    | nil =>
      rw [hspace, List.append_nil] at hfront
      have hpaste := hword head.blank (by rw [hfront]; simp)
      rw [hblank] at hpaste
      cases hpaste
    | cons s space =>
      rw [hspace] at hfront
      have hs : isPasteChar s = false :=
        b.space.isPasteChar s (by rw [hspace]; exact List.mem_cons_self)
      obtain ⟨-, hrest⟩ := Text.eq_of_stop hword hs hfirst' hblank hfront
      obtain ⟨d, hd, hpaste⟩ := head.exists_paste
      have hmem : d ∈ b.space.text := by
        rw [hspace, hrest]
        exact List.mem_cons_of_mem _ hd
      rw [b.space.isPasteChar d hmem] at hpaste
      cases hpaste

/-- A head that is read reaches from before the gap to the brace without a backslash. -/
theorem PastedBody.straight_of_findSome? {b : PastedBody} {found : CType.Kind × List (List Char)}
    (h : (Text.places none b.text).findSome? pastedHead? = some found) : b.Straight := by
  obtain ⟨⟨before, cs⟩, hplace, hread⟩ := List.exists_of_findSome?_eq_some h
  obtain ⟨head, rest, rfl⟩ := exists_head_of_pastedHead? hread
  have hhead : head.text <:+ b.head := PastedBody.suffix_head (Text.mem_places_suffix hplace)
  have hlong : b.gap.text ++ (b.name.text ++ b.space.text) <:+ b.head :=
    (List.suffix_append _ _).trans (List.suffix_append _ _)
  have hreach : b.gap.text ++ (b.name.text ++ b.space.text) <:+ head.text :=
    (List.suffix_or_suffix_of_suffix hhead hlong).resolve_left (b.not_suffix head)
  have hfree : '\\' ∉ head.text := head.not_mem (by decide) (by decide)
  refine ⟨fun hmem => hfree (hreach.subset ?_), fun hmem => hfree (hreach.subset ?_)⟩
  · exact List.mem_append_left _ hmem
  · exact List.mem_append_right _ (List.mem_append_right _ hmem)

/-- A body gives its pieces, unless its head is continued on another line. -/
theorem PastedBody.findSome?_eq (b : PastedBody) :
    (Text.places none b.text).findSome? pastedHead? =
      if b.Straight then some (b.kind.kind, b.name.pieces) else none := by
  split
  · exact PastedBody.findSome?_of_straight ‹_›
  · rename_i hbent
    exact Option.eq_none_iff_forall_ne_some.mpr fun found hread =>
      hbent (PastedBody.straight_of_findSome? hread)

end LayoutGuard.Header
