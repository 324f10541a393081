import LayoutGuard.Proofs.Probe.LineMap

/-!
Whom the output of a compiler blames. Errors are reported at lines of the program in one of
two forms, and noise stands between them: lines that do not name the program, lines without
the word `error` and errors at lines without an entry. The first error at the line of an
entry makes that entry the fault, the others become remarks, and noise alone is passed on.
-/

namespace LayoutGuard.Probe

open Text

variable {s : ProbeSettings} {r : Registry}

/-! Words in a line -/

/-- A text has a word in it, with no word character on either side. -/
def HasWord (word cs : List Char) : Prop :=
  ∃ u v, cs = u ++ (word ++ v) ∧ u.getLast?.any isWordChar = false ∧
    v.head?.any isWordChar = false

/-- The search for the word finds it between characters that are no part of words. -/
theorem mentionsError_iff {before : Option Char} {cs : List Char} :
    mentionsError before cs = true ↔ ∃ u v, cs = u ++ ("error".toList ++ v) ∧
      (u.getLast?.or before).any isWordChar = false ∧ v.head?.any isWordChar = false := by
  have hedge (place : Option Char) (v : List Char) :
      atWordEdge place ("error".toList ++ v) = !place.any isWordChar := by
    have hhead : ("error".toList ++ v).head?.any isWordChar = true := by
      change ('e' :: ("rror".toList ++ v)).head?.any isWordChar = true
      rw [List.head?_cons]
      decide
    rw [atWordEdge, hhead]
    cases place.any isWordChar <;> rfl
  have hend (v : List Char) : atWordEdge (some 'r') v = !v.head?.any isWordChar := by
    have hr : (some 'r').any isWordChar = true := by decide
    rw [atWordEdge, hr]
    cases v.head?.any isWordChar <;> rfl
  unfold mentionsError
  rw [List.any_eq_true]
  constructor
  · intro h
    obtain ⟨place, hplace, hread⟩ := h
    rw [Bool.and_eq_true, Option.any_eq_true] at hread
    obtain ⟨hstart, v, hword, hstop⟩ := hread
    obtain ⟨u, c, rest, rfl, rfl⟩ := exists_split_of_mem_places hplace
    have hsplit : c :: rest = "error".toList ++ v := literal?_eq_some_iff.mp hword
    rw [hsplit] at hstart ⊢
    rw [hedge, Bool.not_eq_true'] at hstart
    rw [hend, Bool.not_eq_true'] at hstop
    exact ⟨u, v, rfl, hstart, hstop⟩
  · intro h
    obtain ⟨u, v, rfl, hstart, hstop⟩ := h
    refine ⟨_, mem_places before u 'e' ("rror".toList ++ v), ?_⟩
    change (atWordEdge (u.getLast?.or before) ("error".toList ++ v) &&
      (literal? "error" ("error".toList ++ v)).any fun rest => atWordEdge (some 'r') rest) = true
    rw [hedge, literal?_append, Option.any_some, hend, hstart, hstop]
    rfl

theorem hasWord_error_iff {cs : List Char} :
    HasWord "error".toList cs ↔ mentionsError none cs = true := by
  simp only [HasWord, mentionsError_iff, Option.or_none]

/-- The digits of a line number stand behind the program's name and a sign, in front of the
word `error`. -/
theorem errorLineDigits?_eq_some_iff {cs digits : List Char} :
    errorLineDigits? cs = some digits ↔ ∃ sign tail, cs = "probe.c".toList ++ sign :: tail ∧
      (sign = ':' ∨ sign = '(') ∧ tail.takeWhile isDecimalDigit = digits ∧ digits ≠ [] ∧
        mentionsError digits.getLast? (tail.dropWhile isDecimalDigit) = true := by
  simp only [errorLineDigits?, Option.bind_eq_bind, Option.bind_eq_some_iff, literal?_eq_some_iff,
    Option.guard_eq_some', Option.pure_def, Option.some.injEq, exists_const, Bool.or_eq_true,
    decide_eq_true_eq, Bool.not_eq_true', List.isEmpty_eq_false_iff]
  constructor
  · rintro ⟨rest, rfl, hsign, hnil, hmentions, rfl⟩
    cases rest with
    | nil => simp at hsign
    | cons sign tail => exact ⟨sign, tail, rfl, by simpa using hsign, rfl, hnil, hmentions⟩
  · rintro ⟨sign, tail, rfl, hsign, rfl, hnil, hmentions⟩
    exact ⟨sign :: tail, rfl, by simpa using hsign, hnil, hmentions, rfl⟩

/-- A line that reports an error at a line names the program and has the word `error`. -/
theorem named_of_errorLine? {line : List Char} {n : Nat} (h : errorLine? line = some n) :
    "probe.c".toList <:+: line ∧ HasWord "error".toList line := by
  obtain ⟨digits, hdigits, -⟩ := Option.bind_eq_some_iff.mp h
  obtain ⟨place, hplace, hread⟩ := List.exists_of_findSome?_eq_some hdigits
  obtain ⟨before, hbefore⟩ := mem_places_suffix hplace
  obtain ⟨sign, tail, hsplit, -, htake, hnil, hmentions⟩ := errorLineDigits?_eq_some_iff.mp hread
  obtain ⟨u, v, hrest, hstart, hstop⟩ := mentionsError_iff.mp hmentions
  have hline : line = before ++ ("probe.c".toList ++
      sign :: (digits ++ (u ++ ("error".toList ++ v)))) := by
    rw [← hrest, ← htake, List.takeWhile_append_dropWhile, ← hsplit, hbefore]
  have hlast : (before ++ ("probe.c".toList ++ sign :: (digits ++ u))).getLast? =
      u.getLast?.or digits.getLast? := by
    rw [List.getLast?_append, List.getLast?_append, List.getLast?_cons_of_ne_nil (by simp [hnil]),
      List.getLast?_append, Option.or_of_isSome (by simp), Option.or_of_isSome (by simp [hnil])]
  refine ⟨⟨before, _, by rw [hline, List.append_assoc]⟩,
    before ++ ("probe.c".toList ++ sign :: (digits ++ u)), v, ?_, by rw [hlast, hstart], hstop⟩
  rw [hline]
  simp only [List.append_assoc, List.cons_append]

/-! Lines that report an error -/

/-- How a compiler writes the place of an error. -/
inductive ErrorReport.Form
  | colons (column : List Char)
  | parentheses

/-- An error that a compiler reports at a line of the program. The path in front of the
program's name does not hold that name itself. -/
structure ErrorReport where
  path : List Char
  form : ErrorReport.Form
  line : Nat
  message : List Char
  path_free : ¬"probe.c".toList <:+: path

namespace ErrorReport

def sign (e : ErrorReport) : Char :=
  match e.form with
  | .colons _ => ':'
  | .parentheses => '('

def ending (e : ErrorReport) : List Char :=
  match e.form with
  | .colons column => ":".toList ++ column ++ ": error: ".toList ++ e.message
  | .parentheses => "): error ".toList ++ e.message

/-- The report as a line of output, `probe.c:LINE:COLUMN: error: MESSAGE` or
`probe.c(LINE): error MESSAGE` behind a path. -/
def text (e : ErrorReport) : List Char :=
  e.path ++ ("probe.c".toList ++ e.sign :: (Decimal.render e.line ++ e.ending))

def withMessage (e : ErrorReport) (message : List Char) : ErrorReport :=
  { e with message := message }

/-- The word `error` stands alone behind the line, and no digit continues the line. -/
theorem exists_ending (e : ErrorReport) :
    ∃ d u v, e.ending = d :: (u ++ ("error".toList ++ v)) ∧ isDecimalDigit d = false ∧
      (d :: u).getLast?.any isWordChar = false ∧ v.head?.any isWordChar = false := by
  unfold ending
  cases e.form with
  | colons column =>
    refine ⟨':', column ++ ": ".toList, ": ".toList ++ e.message, ?_, by decide, ?_, rfl⟩
    · simp
    · have hlast : ": ".toList.getLast? = some ' ' := rfl
      rw [List.getLast?_cons, List.getLast?_append, hlast]
      rfl
  | parentheses =>
    exact ⟨')', ": ".toList, " ".toList ++ e.message, rfl, by decide, by decide, rfl⟩

theorem errorLineDigits?_text (e : ErrorReport) :
    errorLineDigits? ("probe.c".toList ++ e.sign :: (Decimal.render e.line ++ e.ending)) =
      some (Decimal.render e.line) := by
  obtain ⟨d, u, v, hending, hd, hstart, hstop⟩ := e.exists_ending
  have hdigits : ∀ c ∈ Decimal.render e.line, isDecimalDigit c = true :=
    fun _ => isDecimalDigit_of_mem_render
  have hsign : e.sign = ':' ∨ e.sign = '(' := by
    unfold sign
    cases e.form <;> simp
  have hmentions : mentionsError (Decimal.render e.line).getLast? e.ending = true := by
    apply mentionsError_iff.mpr
    refine ⟨d :: u, v, hending, ?_, hstop⟩
    rw [List.getLast?_cons] at hstart ⊢
    exact hstart
  apply errorLineDigits?_eq_some_iff.mpr
  refine ⟨e.sign, _, rfl, hsign, ?_, Decimal.render_ne_nil e.line, ?_⟩
  · rw [hending, takeWhile_stop hdigits hd]
  · rw [hending, dropWhile_stop hdigits hd, ← hending]
    exact hmentions

/-- A report is read as an error on its line, whatever path and message it has. -/
theorem errorLine?_text (e : ErrorReport) :
    errorLine? e.text = Decimal.readBelow? wordBound (Decimal.render e.line) := by
  have hpath : ∀ v, v ≠ [] → v <:+ e.path →
      errorLineDigits? (v ++ ("probe.c".toList ++
        e.sign :: (Decimal.render e.line ++ e.ending))) = none := by
    intro v hnil hv
    have hfree : literal? "probe.c" v = none := by
      rw [Option.eq_none_iff_forall_ne_some]
      intro rest hrest
      have hstart : "probe.c".toList <+: v := ⟨rest, (literal?_eq_some_iff.mp hrest).symm⟩
      exact e.path_free (hstart.isInfix.trans hv.isInfix)
    have hname : "probe.c".toList = 'p' :: "robe.c".toList := rfl
    have hread := literal?_append_first hname (by decide) hnil
      ("robe.c".toList ++ e.sign :: (Decimal.render e.line ++ e.ending))
    rw [hfree] at hread
    unfold errorLineDigits?
    change (literal? "probe.c" (v ++ 'p' :: ("robe.c".toList ++ _))).bind _ = none
    rw [hread]
    rfl
  unfold errorLine? text
  rw [findSome?_places_append _ hpath]
  change (List.findSome? _ ((_, "probe.c".toList ++ _) :: _)).bind _ = _
  rw [List.findSome?_cons, errorLineDigits?_text]
  rfl

/-- The message is the end of a report, with a space in front of it. -/
theorem exists_lead (e : ErrorReport) :
    ∃ lead, lead.getLast? = some ' ' ∧
      ∀ message, (e.withMessage message).text = lead ++ message := by
  obtain ⟨path, form, line, message, hfree⟩ := e
  cases form with
  | colons column =>
    refine ⟨path ++ ("probe.c:".toList ++ (Decimal.render line ++
      (":".toList ++ (column ++ ": error: ".toList)))), ?_, ?_⟩
    · have hlast : ": error: ".toList.getLast? = some ' ' := rfl
      simp only [List.getLast?_append, hlast, Option.some_or]
    · intro message
      have hname : "probe.c:".toList = "probe.c".toList ++ [':'] := rfl
      simp only [text, withMessage, sign, ending, hname, List.append_assoc, List.cons_append,
        List.nil_append]
  | parentheses =>
    refine ⟨path ++ ("probe.c(".toList ++ (Decimal.render line ++ "): error ".toList)), ?_, ?_⟩
    · have hlast : "): error ".toList.getLast? = some ' ' := rfl
      simp only [List.getLast?_append, hlast, Option.some_or]
    · intro message
      have hname : "probe.c(".toList = "probe.c".toList ++ ['('] := rfl
      simp only [text, withMessage, sign, ending, hname, List.append_assoc, List.cons_append,
        List.nil_append]

/-- A carriage return that is dropped from a report is dropped from its message. -/
theorem dropReturn_text (e : ErrorReport) :
    dropReturn e.text = (e.withMessage (dropReturn e.message)).text := by
  obtain ⟨lead, hlast, hlead⟩ := e.exists_lead
  have hreturn : lead.getLast? ≠ some '\r' := by
    rw [hlast]
    decide
  calc dropReturn e.text = dropReturn (lead ++ e.message) := by rw [← hlead]; rfl
    _ = lead ++ dropReturn e.message := dropReturn_append hreturn e.message
    _ = (e.withMessage (dropReturn e.message)).text := (hlead _).symm

end ErrorReport

/-! Noise -/

/-- A line of output that has nothing to do with an entry. -/
inductive Noise (s : ProbeSettings) (r : Registry) : List Char → Prop
  | unnamed {line : List Char} (hname : ¬"probe.c".toList <:+: line) : Noise s r line
  | harmless {line : List Char} (hword : ¬HasWord "error".toList line) : Noise s r line
  | elsewhere (e : ErrorReport) (hline : ∀ i < r.size, e.line ≠ s.defines.length + 8 + i) :
      Noise s r e.text

theorem Noise.dropReturn {line : List Char} (h : Noise s r line) : Noise s r (dropReturn line) := by
  cases h with
  | unnamed hname =>
    apply Noise.unnamed
    intro hwithin
    rcases eq_dropReturn_or_append line with hsame | happend
    · exact hname (hsame ▸ hwithin)
    · rw [happend] at hname
      exact hname (hwithin.trans (List.infix_append' [] _ _))
  | harmless hword =>
    apply Noise.harmless
    intro h
    obtain ⟨u, v, hsplit, hstart, hstop⟩ := h
    apply hword
    rcases eq_dropReturn_or_append line with hsame | happend
    · exact ⟨u, v, hsame.trans hsplit, hstart, hstop⟩
    · refine ⟨u, v ++ ['\r'], ?_, hstart, ?_⟩
      · rw [happend, hsplit, List.append_assoc, List.append_assoc]
      · cases v with
        | nil => decide
        | cons c v => exact hstop
  | elsewhere e hline =>
    rw [e.dropReturn_text]
    exact Noise.elsewhere (e.withMessage _) hline

/-- An error at a line without a `sizeof`, such as a definition or an include, is noise. -/
theorem Noise.of_no_sizeof (h : Lined s r) (e : ErrorReport)
    (hline : ∀ l, (Text.lines (Probe.text s r))[e.line - 1]? = some l →
      ¬"sizeof(".toList <:+: l) : Noise s r e.text := by
  apply Noise.elsewhere
  intro i hi hposition
  obtain ⟨b, hb⟩ : ∃ b, r.bindings[i]? = some b := ⟨_, List.getElem?_eq_getElem hi⟩
  have hindex : e.line - 1 = s.defines.length + 7 + i := by omega
  have hcast : "u, (unsigned long long)sizeof(".toList =
    "u, (unsigned long long)".toList ++ "sizeof(".toList := rfl
  apply hline (entryLine i b.spelling)
  · rw [hindex, lines_text h, List.getElem?_map, getElem?_lines_entry hb, Option.map_some,
      dropReturn_entryLine]
  · rw [entryLine_eq, hcast]
    refine ⟨"    ".toList ++ entryLead ++ Decimal.render i ++ "u, (unsigned long long)".toList,
      b.spelling.toList ++ "));".toList, ?_⟩
    simp only [List.append_assoc]

/-- An entry that a line blames is the one at the line of an error. -/
theorem blame?_eq_some_iff {program line : List Char} {b : Binding} {shown : List Char} :
    blame? r program line = some (b, shown) ↔ ∃ n i, errorLine? line = some n ∧
      entryAtLine? program n = some i ∧ r.bindings[i]? = some b ∧ trim line = shown := by
  unfold blame?
  simp only [Option.bind_eq_bind, Option.bind_eq_some_iff, Option.pure_def, Option.some.injEq,
    Prod.mk.injEq]
  constructor
  · rintro ⟨n, hn, i, hi, _, hb, rfl, rfl⟩
    exact ⟨n, i, hn, hi, hb, rfl⟩
  · rintro ⟨n, i, hn, hi, hb, rfl⟩
    exact ⟨n, hn, i, hi, b, hb, rfl, rfl⟩

/-- Noise blames no entry. -/
theorem blame?_noise (h : Lined s r) {line : List Char} (hline : Noise s r line) :
    blame? r (text s r) line = none := by
  rw [Option.eq_none_iff_forall_ne_some]
  intro ⟨b, shown⟩ hblame
  obtain ⟨n, i, hn, hi, -, -⟩ := blame?_eq_some_iff.mp hblame
  cases hline with
  | unnamed hname => exact hname (named_of_errorLine? hn).1
  | harmless hword => exact hword (named_of_errorLine? hn).2
  | elsewhere e hline =>
    rw [e.errorLine?_text, Decimal.readBelow?, Decimal.read?_render,
      Option.filter_eq_some_iff] at hn
    obtain ⟨hsame, -⟩ := hn
    cases hsame
    obtain ⟨hsize, -, hposition⟩ := (entryAtLine?_text_iff h).mp hi
    exact hline i hsize hposition

/-- A report on the line of an entry blames this entry. -/
theorem blame?_report {program : List Char} (e : ErrorReport) {i : Nat} {b : Binding}
    (hword : e.line < wordBound) (hentry : entryAtLine? program e.line = some i)
    (hb : r.bindings[i]? = some b) : blame? r program e.text = some (b, trim e.text) := by
  apply blame?_eq_some_iff.mpr
  refine ⟨e.line, i, ?_, hentry, hb, rfl⟩
  rw [e.errorLine?_text, Decimal.readBelow?_render hword]

/-! The whole output -/

/-- Lines of output with errors at the lines of entries and noise between them, and the
entries with their lines in this order. Line numbers are machine words. -/
inductive Blames (s : ProbeSettings) (r : Registry) :
    List (List Char) → List (Binding × List Char) → Prop
  | nil : Blames s r [] []
  | noise {line : List Char} {ls : List (List Char)} {blamed : List (Binding × List Char)}
      (hline : Noise s r line) (hrest : Blames s r ls blamed) : Blames s r (line :: ls) blamed
  | entry (e : ErrorReport) {i : Nat} {b : Binding} {ls : List (List Char)}
      {blamed : List (Binding × List Char)} (hword : e.line < wordBound)
      (hentry : entryAtLine? (text s r) e.line = some i) (hb : r.bindings[i]? = some b)
      (hrest : Blames s r ls blamed) : Blames s r (e.text :: ls) ((b, e.text) :: blamed)

variable {ls : List (List Char)} {blamed : List (Binding × List Char)}

theorem Blames.blame?_dropReturn (h : Lined s r) (hblames : Blames s r ls blamed) :
    ∀ line ∈ ls, blame? r (text s r) (dropReturn line) = blame? r (text s r) line := by
  induction hblames with
  | nil => exact List.forall_mem_nil _
  | noise hline _ ih =>
    rw [List.forall_mem_cons]
    exact ⟨by rw [blame?_noise h hline, blame?_noise h hline.dropReturn], ih⟩
  | entry e hword hentry hb _ ih =>
    rw [List.forall_mem_cons]
    refine ⟨?_, ih⟩
    have hdropped := blame?_report (e.withMessage (dropReturn e.message)) hword hentry hb
    rw [← e.dropReturn_text, trim_dropReturn] at hdropped
    rw [hdropped, blame?_report e hword hentry hb]

/-- All blamed entries are found in the order of their reports, and noise is passed over. -/
theorem Blames.filterMap (h : Lined s r) (hblames : Blames s r ls blamed) :
    ls.filterMap (blame? r (text s r)) = blamed.map fun p => (p.1, trim p.2) := by
  induction hblames with
  | nil => rfl
  | noise hline _ ih => rw [List.filterMap_cons_none (blame?_noise h hline), ih]
  | entry e hword hentry hb _ ih =>
    rw [List.filterMap_cons_some (blame?_report e hword hentry hb), ih, List.map_cons]

/-- The pieces of the output between its line feeds are errors at the lines of some entries
and noise. If there are such errors then the first one makes its entry the fault, with the
trimmed line as the reason, and each later one leaves a remark. If there are none then the
fault carries the whole output. -/
theorem diagnose_of_blames (h : Lined s r) (compiler : String) {output : List Char}
    (hblames : Blames s r (output.splitOn '\n') blamed) :
    (∀ b line others, blamed = (b, line) :: others →
      diagnose r compiler (text s r) output =
        (.unresolvable b.spelling b.odinName (.rejected (String.ofList (trim line))),
          others.map fun p => ⟨.error, "[ERROR] also unresolvable: " ++ p.1.text⟩)) ∧
    (blamed = [] → diagnose r compiler (text s r) output =
      (.compileFailed compiler (String.ofList output), [])) := by
  have hempty : blame? r (text s r) [] = none :=
    blame?_noise h (Noise.unnamed (by decide))
  have hfound : (Text.lines output).filterMap (blame? r (text s r)) =
      blamed.map fun p => (p.1, trim p.2) := by
    rw [filterMap_lines hempty (hblames.blame?_dropReturn h), hblames.filterMap h]
  constructor
  · intro b line others hblamed
    rw [diagnose, hfound, hblamed, List.map_cons]
    simp only [List.map_map]
    rfl
  · intro hblamed
    rw [diagnose, hfound, hblamed, List.map_nil]

/-! Errors in both forms, out of the order of the entries and with noise around them -/

def unknownRect : ErrorReport :=
  ⟨"C:\\x\\".toList, .parentheses, 11, "C2027: probe.c:10:1: error: nk_rect\r".toList,
    by decide +kernel⟩

def unknownHeader : ErrorReport :=
  ⟨[], .colons ['1'], 4, "stdint.h: No such file".toList, by decide⟩

def incompleteLong : ErrorReport :=
  ⟨"./".toList, .colons "54".toList, 10, "incomplete type ".toList, by decide⟩

def mixedOutput : List Char :=
  List.intercalate ['\n'] ["In file included from a.c:1:".toList, unknownRect.text,
    unknownHeader.text, "probe.c:10: errors follow".toList, incompleteLong.text, []]

/-- Two reports in either form, between lines that only look like reports. -/
theorem diagnose_mixedOutput :
    Lined lookalikes lookalikeTypes ∧
      diagnose lookalikeTypes "cc" (text lookalikes lookalikeTypes) mixedOutput =
        (.unresolvable "struct nk_rect" "Rect"
          (.rejected "C:\\x\\probe.c(11): error C2027: probe.c:10:1: error: nk_rect"),
          [⟨.error, "[ERROR] also unresolvable: int));\r    printf(\"%u %llu\\n\", 1u, " ++
            "(unsigned long long)sizeof(long -> Long"⟩]) := by
  have hpieces : mixedOutput.splitOn '\n' = ["In file included from a.c:1:".toList,
      unknownRect.text, unknownHeader.text, "probe.c:10: errors follow".toList,
      incompleteLong.text, []] := by
    decide +kernel
  have hinclude : (Text.lines (text lookalikes lookalikeTypes))[3]? =
      some "#include <stdint.h>".toList := by
    decide +kernel
  have hheader : Noise lookalikes lookalikeTypes unknownHeader.text := by
    apply Noise.of_no_sizeof lined_lookalikes
    intro l hl
    rw [show unknownHeader.line - 1 = 3 from rfl, hinclude, Option.some.injEq] at hl
    rw [← hl]
    decide +kernel
  have hremark : Noise lookalikes lookalikeTypes "probe.c:10: errors follow".toList := by
    apply Noise.harmless
    rw [hasWord_error_iff]
    decide +kernel
  have hrect : entryAtLine? (text lookalikes lookalikeTypes) unknownRect.line = some 1 :=
    (entryAtLine?_text_iff lined_lookalikes).mpr (by decide)
  have hlong : entryAtLine? (text lookalikes lookalikeTypes) incompleteLong.line = some 0 :=
    (entryAtLine?_text_iff lined_lookalikes).mpr (by decide)
  have hblames : Blames lookalikes lookalikeTypes (mixedOutput.splitOn '\n')
      [(⟨⟨.struct, "nk_rect"⟩, "Rect"⟩, unknownRect.text),
        (⟨⟨.typedef, "int));\r    printf(\"%u %llu\\n\", 1u, (unsigned long long)sizeof(long"⟩,
          "Long"⟩, incompleteLong.text)] := by
    rw [hpieces]
    apply Blames.noise (Noise.unnamed (by decide +kernel))
    apply Blames.entry unknownRect (by decide +kernel) hrect rfl
    apply Blames.noise hheader
    apply Blames.noise hremark
    apply Blames.entry incompleteLong (by decide +kernel) hlong rfl
    exact Blames.noise (Noise.unnamed (by decide)) Blames.nil
  refine ⟨lined_lookalikes, ?_⟩
  rw [(diagnose_of_blames lined_lookalikes "cc" hblames).1 _ _ _ rfl]
  decide +kernel

end LayoutGuard.Probe
