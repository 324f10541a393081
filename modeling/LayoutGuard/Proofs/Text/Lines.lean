import Mathlib.Data.List.Basic
import LayoutGuard.Proofs.Text.Reading
import LayoutGuard.Text.Lines

/-!
Lines and the text that is made of them. Lines without line feeds and without a
final carriage return are read back from their text. The lines of a text, together with
whether its last line is ended, determine it up to carriage returns before line feeds.
-/

namespace LayoutGuard.Text

def unlines (ls : List (List Char)) : List Char :=
  ls.flatMap fun l => l ++ ['\n']

@[simp] theorem unlines_nil : unlines [] = [] := rfl

@[simp] theorem unlines_cons (l : List Char) (ls : List (List Char)) :
    unlines (l :: ls) = l ++ '\n' :: unlines ls := by
  simp [unlines]

/-- A line that reading takes back unchanged. -/
structure IsLine (l : List Char) : Prop where
  no_feed : '\n' ∉ l
  no_return : l.getLast? ≠ some '\r'

theorem dropReturn_cons {c : Char} (hc : c ≠ '\r') (cs : List Char) :
    dropReturn (c :: cs) = c :: dropReturn cs :=
  dropReturn.eq_3 c cs fun hreturn _ => hc hreturn

/-- A piece in front of the end of a line stays, if no carriage return ends it. -/
theorem dropReturn_append {u : List Char} (hu : u.getLast? ≠ some '\r') (v : List Char) :
    dropReturn (u ++ v) = u ++ dropReturn v := by
  induction u with
  | nil => rfl
  | cons c u ih =>
    cases u with
    | nil =>
      have hc : c ≠ '\r' := fun e => hu (by rw [e, List.getLast?_singleton])
      exact dropReturn_cons hc v
    | cons d u =>
      have hrest : dropReturn (d :: u ++ v) = d :: u ++ dropReturn v :=
        ih (by rwa [List.getLast?_cons_cons] at hu)
      rw [List.cons_append, dropReturn.eq_3 c _ (by simp), hrest]
      rfl

theorem dropReturn_eq_self {l : List Char} (h : l.getLast? ≠ some '\r') : dropReturn l = l := by
  have hwhole : dropReturn (l ++ []) = l ++ dropReturn [] := dropReturn_append h []
  rwa [List.append_nil, dropReturn, List.append_nil] at hwhole

theorem eq_dropReturn_or_append (l : List Char) :
    l = dropReturn l ∨ l = dropReturn l ++ ['\r'] := by
  fun_induction dropReturn l with
  | case1 => exact Or.inl rfl
  | case2 => exact Or.inr rfl
  | case3 c cs _ ih =>
    rcases ih with h | h
    · exact Or.inl (congrArg (c :: ·) h)
    · exact Or.inr (congrArg (c :: ·) h)

/-- Reading on over a piece without line feeds, up to the end of its line. -/
theorem linesFrom_append (start l rest : List Char) (hl : '\n' ∉ l) :
    linesFrom start (l ++ '\n' :: rest) = dropReturn (start.reverse ++ l) :: lines rest := by
  induction l generalizing start with
  | nil => simp [linesFrom, lines]
  | cons c l ih =>
    have hc : c ≠ '\n' := fun e => hl (e ▸ List.mem_cons_self)
    have hrest : '\n' ∉ l := fun m => hl (List.mem_cons_of_mem c m)
    rw [List.cons_append, linesFrom, if_neg hc, ih (c :: start) hrest]
    simp

theorem lines_cons {l : List Char} (hl : '\n' ∉ l) (rest : List Char) :
    lines (l ++ '\n' :: rest) = dropReturn l :: lines rest :=
  linesFrom_append [] l rest hl

theorem lines_unlines_of_no_feed {ls : List (List Char)} (h : ∀ l ∈ ls, '\n' ∉ l) :
    lines (unlines ls) = ls.map dropReturn := by
  induction ls with
  | nil => rfl
  | cons l ls ih =>
    rw [unlines_cons, lines_cons (h l List.mem_cons_self),
      ih fun m hm => h m (List.mem_cons_of_mem l hm), List.map_cons]

/-- Lines are read back from their text. -/
theorem lines_unlines {ls : List (List Char)} (h : ∀ l ∈ ls, IsLine l) :
    lines (unlines ls) = ls := by
  rw [lines_unlines_of_no_feed fun l hl => (h l hl).no_feed,
    List.map_congr_left fun l hl => dropReturn_eq_self (h l hl).no_return, List.map_id']

/-- Cut at its line feeds, the text of some lines leaves nothing behind the last one. -/
theorem splitOn_unlines {ls : List (List Char)} (h : ∀ l ∈ ls, '\n' ∉ l) :
    (unlines ls).splitOn '\n' = ls ++ [[]] := by
  induction ls with
  | nil => rfl
  | cons l ls ih =>
    rw [unlines_cons, List.splitOn_append_cons_self,
      List.splitOn_eq_singleton (h l List.mem_cons_self),
      ih fun m hm => h m (List.mem_cons_of_mem l hm)]
    rfl

/-- A reader that ignores a carriage return at the end finds the same in lines and in pieces. -/
theorem filterMap_linesFrom {α : Type} {f : List Char → Option α} (hnil : f [] = none)
    {start : List Char} (hstart : '\n' ∉ start) (cs : List Char)
    (hreturn : ∀ l ∈ (start.reverse ++ cs).splitOn '\n', f (dropReturn l) = f l) :
    (linesFrom start cs).filterMap f = ((start.reverse ++ cs).splitOn '\n').filterMap f := by
  have hreverse : '\n' ∉ start.reverse := by rwa [List.mem_reverse]
  induction cs generalizing start with
  | nil =>
    rw [List.append_nil, List.splitOn_eq_singleton hreverse, linesFrom]
    cases start with
    | nil => simp [hnil]
    | cons c start => simp
  | cons c cs ih =>
    rw [linesFrom]
    split
    next hc =>
      rw [hc, List.splitOn_append_cons_self, List.splitOn_eq_singleton hreverse] at hreturn ⊢
      have hrest : (linesFrom [] cs).filterMap f = (cs.splitOn '\n').filterMap f :=
        ih List.not_mem_nil (fun l hl => hreturn l (List.mem_append_right _ hl)) (by simp)
      have hline : f (dropReturn start.reverse) = f start.reverse := hreturn _ (by simp)
      rw [List.singleton_append, List.filterMap_cons, List.filterMap_cons, hline, hrest]
    next hc =>
      have hnext : '\n' ∉ c :: start := by
        simp only [List.mem_cons, not_or]
        exact ⟨Ne.symm hc, hstart⟩
      have hmove : (c :: start).reverse ++ cs = start.reverse ++ c :: cs := by simp
      rw [← hmove] at hreturn ⊢
      exact ih hnext hreturn (by rwa [List.mem_reverse])

/-- For a reader that finds nothing on an empty line and overlooks a carriage return at the
end, the lines of a text are the pieces between its line feeds. -/
theorem filterMap_lines {α : Type} {f : List Char → Option α} (hnil : f [] = none)
    {cs : List Char} (hreturn : ∀ l ∈ cs.splitOn '\n', f (dropReturn l) = f l) :
    (lines cs).filterMap f = (cs.splitOn '\n').filterMap f :=
  filterMap_linesFrom hnil List.not_mem_nil cs hreturn

/-! The text that some lines were read from -/

/-- The text with one carriage return dropped before each line feed. -/
def plainEndings : List Char → List Char
  | [] => []
  | '\r' :: '\n' :: cs => '\n' :: plainEndings cs
  | c :: cs => c :: plainEndings cs

theorem plainEndings_of_no_return {cs : List Char} (h : '\r' ∉ cs) : plainEndings cs = cs := by
  fun_induction plainEndings cs with
  | case1 => rfl
  | case2 cs ih => exact absurd List.mem_cons_self h
  | case3 c cs hc ih => rw [ih fun m => h (List.mem_cons_of_mem c m)]

theorem plainEndings_of_no_feed {l : List Char} (hl : '\n' ∉ l) : plainEndings l = l := by
  fun_induction plainEndings l with
  | case1 => rfl
  | case2 cs ih => exact absurd (by simp) hl
  | case3 c cs hc ih => rw [ih fun m => hl (List.mem_cons_of_mem c m)]

theorem getLast?_plainEndings (cs : List Char) : (plainEndings cs).getLast? = cs.getLast? := by
  fun_induction plainEndings cs with
  | case1 => rfl
  | case2 cs ih => rw [List.getLast?_cons, List.getLast?_cons_cons, List.getLast?_cons, ih]
  | case3 c cs hc ih => rw [List.getLast?_cons, List.getLast?_cons, ih]

/-- In front of its line feed a line loses what reading it drops. -/
theorem plainEndings_append {l : List Char} (hl : '\n' ∉ l) (rest : List Char) :
    plainEndings (l ++ '\n' :: rest) = dropReturn l ++ '\n' :: plainEndings rest := by
  fun_induction dropReturn l with
  | case1 => rfl
  | case2 => rfl
  | case3 c cs hc ih =>
    have hnext : '\n' ∉ cs := fun m => hl (List.mem_cons_of_mem c m)
    have hsplit : ∀ ds, c = '\r' → cs ++ '\n' :: rest = '\n' :: ds → False := by
      intro ds hreturn heq
      cases cs with
      | nil => exact hc hreturn rfl
      | cons d cs =>
        cases heq
        exact hnext List.mem_cons_self
    rw [List.cons_append, plainEndings.eq_3 c _ hsplit, ih hnext]
    rfl

/-- The line feed that the last line of a text lacks, if it lacks it. -/
def missingFeed (cs : List Char) : List Char :=
  if cs = [] ∨ cs.getLast? = some '\n' then [] else ['\n']

theorem missingFeed_append (l cs : List Char) : missingFeed (l ++ '\n' :: cs) = missingFeed cs := by
  cases cs with
  | nil => simp [missingFeed]
  | cons c cs => simp [missingFeed, List.getLast?_cons_cons]

theorem missingFeed_of_no_feed {l : List Char} (hnil : l ≠ []) (hl : '\n' ∉ l) :
    missingFeed l = ['\n'] := by
  have hlast : l.getLast? ≠ some '\n' := fun h => hl (List.mem_of_getLast? h)
  rw [missingFeed, if_neg (not_or.mpr ⟨hnil, hlast⟩)]

theorem missingFeed_congr {cs ds : List Char} (h : cs.getLast? = ds.getLast?) :
    missingFeed cs = missingFeed ds := by
  simp only [missingFeed, ← List.getLast?_eq_none_iff, h]

/-- Joining the lines gives the text with plain line endings and a final line feed. -/
theorem unlines_linesFrom {start : List Char} (hstart : '\n' ∉ start) (cs : List Char) :
    unlines (linesFrom start cs) =
      plainEndings (start.reverse ++ cs) ++ missingFeed (start.reverse ++ cs) := by
  induction cs generalizing start with
  | nil =>
    cases start with
    | nil => rfl
    | cons c start =>
      have hline : '\n' ∉ (c :: start).reverse := by rwa [List.mem_reverse]
      rw [List.append_nil, plainEndings_of_no_feed hline, missingFeed_of_no_feed (by simp) hline]
      simp [linesFrom]
  | cons c cs ih =>
    rw [linesFrom]
    split
    next hc =>
      rw [unlines_cons, ih List.not_mem_nil, hc, plainEndings_append (by simpa using hstart),
        missingFeed_append]
      simp
    next hc =>
      have hnext : '\n' ∉ c :: start := by
        simp only [List.mem_cons, not_or]
        exact ⟨Ne.symm hc, hstart⟩
      rw [ih hnext, List.reverse_cons, List.append_assoc]
      rfl

/-- The lines of a text make up its plain form, with its last line ended. -/
theorem unlines_lines (cs : List Char) : unlines (lines cs) = plainEndings cs ++ missingFeed cs :=
  unlines_linesFrom List.not_mem_nil cs

theorem no_feed_dropReturn {l : List Char} (hl : '\n' ∉ l) : '\n' ∉ dropReturn l := by
  fun_induction dropReturn l with
  | case1 => exact hl
  | case2 => exact List.not_mem_nil
  | case3 c cs hc ih =>
    simp only [List.mem_cons, not_or] at hl ⊢
    exact ⟨hl.1, ih hl.2⟩

theorem no_feed_of_mem_linesFrom {start cs l : List Char} (hstart : '\n' ∉ start)
    (hl : l ∈ linesFrom start cs) : '\n' ∉ l := by
  induction cs generalizing start with
  | nil =>
    rw [linesFrom] at hl
    split at hl
    · cases hl
    · rw [List.mem_singleton.mp hl]
      simpa using hstart
  | cons c cs ih =>
    rw [linesFrom] at hl
    split at hl
    next hc =>
      rcases List.mem_cons.mp hl with rfl | hl
      · exact no_feed_dropReturn (by simpa using hstart)
      · exact ih List.not_mem_nil hl
    next hc =>
      refine ih ?_ hl
      simp only [List.mem_cons, not_or]
      exact ⟨Ne.symm hc, hstart⟩

/-- Lines hold no line feeds. -/
theorem no_feed_of_mem_lines {cs l : List Char} (hl : l ∈ lines cs) : '\n' ∉ l :=
  no_feed_of_mem_linesFrom List.not_mem_nil hl

/-- Lines without line feeds are told by the text that joins them. -/
theorem unlines_injective {ls ms : List (List Char)} (hls : ∀ l ∈ ls, '\n' ∉ l)
    (hms : ∀ m ∈ ms, '\n' ∉ m) (h : unlines ls = unlines ms) : ls = ms := by
  have hne (l : List Char) (hl : '\n' ∉ l) : ∀ c ∈ l, (c != '\n') = true :=
    fun c hc => bne_iff_ne.mpr fun e => hl (e ▸ hc)
  induction ls generalizing ms with
  | nil =>
    cases ms with
    | nil => rfl
    | cons m ms => simp at h
  | cons l ls ih =>
    cases ms with
    | nil => simp at h
    | cons m ms =>
      rw [unlines_cons, unlines_cons] at h
      have hl := hls l List.mem_cons_self
      have hm := hms m List.mem_cons_self
      obtain ⟨rfl, hrest⟩ := eq_of_stop (hne l hl) (by decide) (hne m hm) (by decide) h
      rw [ih (fun k hk => hls k (List.mem_cons_of_mem l hk))
        (fun k hk => hms k (List.mem_cons_of_mem l hk)) (List.cons.inj hrest).2]

theorem lines_eq_nil_iff {cs : List Char} : lines cs = [] ↔ cs = [] := by
  constructor
  · intro h
    have hplain := unlines_lines cs
    rw [h, unlines_nil] at hplain
    have hlast := getLast?_plainEndings cs
    rw [(List.append_eq_nil_iff.mp hplain.symm).1] at hlast
    exact List.getLast?_eq_none_iff.mp hlast.symm
  · rintro rfl
    rfl

/-- Two texts have the same lines, and both or neither end the last one, exactly when
they differ in nothing but carriage returns before line feeds. -/
theorem lines_eq_iff_plainEndings {cs ds : List Char} :
    lines cs = lines ds ∧ (cs.getLast? = some '\n' ↔ ds.getLast? = some '\n') ↔
      plainEndings cs = plainEndings ds := by
  constructor
  · rintro ⟨hlines, hends⟩
    have hnil : cs = [] ↔ ds = [] := by rw [← lines_eq_nil_iff, hlines, lines_eq_nil_iff]
    have hmissing : missingFeed cs = missingFeed ds := by simp only [missingFeed, hnil, hends]
    have hplain := unlines_lines cs
    rw [hlines, unlines_lines ds, hmissing] at hplain
    exact (List.append_cancel_right hplain).symm
  · intro h
    have hlast : cs.getLast? = ds.getLast? := by
      rw [← getLast?_plainEndings cs, h, getLast?_plainEndings]
    have hlines : unlines (lines cs) = unlines (lines ds) := by
      rw [unlines_lines, unlines_lines, h, missingFeed_congr hlast]
    exact ⟨unlines_injective (fun _ => no_feed_of_mem_lines) (fun _ => no_feed_of_mem_lines) hlines,
      by rw [hlast]⟩

theorem getLast?_unlines {ls : List (List Char)} (h : ls ≠ []) :
    (unlines ls).getLast? = some '\n' := by
  induction ls with
  | nil => exact absurd rfl h
  | cons l ls ih =>
    cases ls with
    | nil => simp
    | cons m ms =>
      rw [unlines_cons, List.getLast?_append_cons, List.getLast?_cons, ih (by simp)]
      rfl

theorem mem_unlines {c : Char} {ls : List (List Char)} (hc : c ≠ '\n') :
    c ∈ unlines ls ↔ ∃ l ∈ ls, c ∈ l := by
  simp [unlines, hc]

end LayoutGuard.Text
