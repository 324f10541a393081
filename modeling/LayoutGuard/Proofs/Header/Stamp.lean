import LayoutGuard.Proofs.Header.PastedBody

/-!
Macros that stamp out a type, and their invocations. A definition of such a macro is read
as it is written, on one line or on several that are continued. An invocation with an
argument for each parameter defines the type whose name has each parameter among its
pieces replaced by the argument, unless a line is continued before the brace.
-/

namespace LayoutGuard.Header

open Text (isBlank isWordChar isNameRest)

/-! Logical lines -/

/-- Every line feed of the text stands behind a backslash. -/
def isOneLine : List Char → Bool
  | [] => true
  | '\\' :: '\n' :: cs => isOneLine cs
  | '\\' :: '\r' :: '\n' :: cs => isOneLine cs
  | c :: cs => c != '\n' && isOneLine cs

/-- The end of the text, or of a line. -/
def LineEnd (tail : List Char) : Prop :=
  tail = [] ∨ ∃ rest, tail = '\n' :: rest

theorem logicalLine_eq_self {u : List Char} (h : isOneLine u = true) : logicalLine u = (u, []) := by
  fun_induction isOneLine u with
  | case1 => rfl
  | case2 cs ih => rw [logicalLine, ih h]
  | case3 cs ih => rw [logicalLine, ih h]
  | case4 c cs hfeed hreturn ih =>
    rw [Bool.and_eq_true, bne_iff_ne] at h
    rw [logicalLine_cons h.1, ih h.2]
    · rintro ⟨tail, htail⟩
      cases htail
      exact hfeed tail rfl rfl
    · rintro ⟨tail, htail⟩
      cases htail
      exact hreturn tail rfl rfl

/-- A body whose line feeds are all escaped ends where its line does. -/
theorem logicalLine_tail {u tail : List Char} (h : isOneLine u = true)
    (hend : ¬Continued (u ++ ['\n'])) (htail : LineEnd tail) :
    logicalLine (u ++ tail) = (u, tail) := by
  rcases htail with rfl | ⟨rest, rfl⟩
  · rw [List.append_nil, logicalLine_eq_self h]
  · rw [logicalLine_append hend, logicalLine_eq_self h]
    rfl

theorem PastedBody.not_continued (b : PastedBody) : ¬Continued (b.text ++ ['\n']) := by
  have hclose : ['\x7d', '\n'] <:+ b.text ++ ['\n'] :=
    ⟨b.head ++ '\x7b' :: b.fields, by simp [PastedBody.text]⟩
  rintro (hfeed | hreturn)
  · rcases List.suffix_or_suffix_of_suffix hfeed hclose with h | h <;> exact absurd h (by decide)
  · rcases List.suffix_or_suffix_of_suffix hreturn hclose with h | h <;> exact absurd h (by decide)

/-! Lists of parameters and of arguments -/

/-- An identifier as a parameter of a macro. -/
structure Parameter where
  before : Gap
  name : Identifier
  after : Gap

def Parameter.text (p : Parameter) : List Char :=
  p.before.text ++ (p.name.text ++ p.after.text)

/-- The text of an argument, which holds no signs that cut a list of arguments or a header. -/
structure Argument where
  text : List Char
  all_plain : text.all (fun c => isInner c && c != ',' && c != '#') = true

/-- What an argument stands for: its text without the white space around it. -/
def Argument.value (a : Argument) : List Char :=
  Text.trim a.text

def listed (texts : List (List Char)) : List Char :=
  [','].intercalate texts

/-- Texts without commas are read back from a list of them. -/
theorem splitArguments_listed {texts : List (List Char)} (hcomma : ∀ t ∈ texts, ',' ∉ t)
    (hnil : texts ≠ []) : splitArguments (listed texts) = texts.map Text.trim := by
  rw [splitArguments, listed, List.splitOn_intercalate ',' hcomma hnil]

theorem exists_mem_of_mem_intercalate {α : Type} {sep : List α} {texts : List (List α)} {a : α}
    (h : a ∈ sep.intercalate texts) : a ∈ sep ∨ ∃ t ∈ texts, a ∈ t := by
  induction texts with
  | nil => cases h
  | cons t texts ih =>
    cases texts with
    | nil =>
      rw [List.intercalate_singleton] at h
      exact Or.inr ⟨t, List.mem_cons_self, h⟩
    | cons u texts =>
      rw [List.intercalate_cons_cons, List.mem_append, List.mem_append] at h
      rcases h with (h | h) | h
      · exact Or.inr ⟨t, List.mem_cons_self, h⟩
      · exact Or.inl h
      · exact (ih h).imp_right fun ⟨v, hv, ha⟩ => ⟨v, List.mem_cons_of_mem t hv, ha⟩

theorem Identifier.isBlank (n : Identifier) : ∀ c ∈ n.text, Text.isBlank c = false :=
  fun c hc => Text.isBlank_of_isWordChar (n.isWordChar c hc)

theorem Parameter.trim_text (p : Parameter) : Text.trim p.text = p.name.text := by
  rw [Parameter.text, Text.trim_gap_append p.before.blank, Text.trim_append_gap p.after.blank]
  exact Text.trim_eq_self (fun c hc => p.name.isBlank c (List.mem_of_head? hc))
    fun c hc => p.name.isBlank c (List.mem_of_getLast? hc)

theorem Parameter.not_mem (p : Parameter) {c : Char} (hword : isWordChar c = false)
    (hblank : isBlank c = false) : c ∉ p.text := by
  simp only [Parameter.text, List.mem_append, not_or]
  refine ⟨fun h => ?_, fun h => ?_, fun h => ?_⟩
  · exact Text.ne_of_isBlank (p.before.blank c h) hblank rfl
  · rw [p.name.isWordChar c h] at hword
    cases hword
  · exact Text.ne_of_isBlank (p.after.blank c h) hblank rfl

theorem Argument.not_mem (a : Argument) {c : Char}
    (hc : (isInner c && c != ',' && c != '#') = false) : c ∉ a.text :=
  Text.not_mem_of_all a.all_plain hc

/-! Macros that stamp out a type -/

/-- A macro whose body defines a struct or union with a pasted name. -/
structure Stamp where
  name : Identifier
  parameters : List Parameter
  body : PastedBody
  one_line : isOneLine body.text = true

def defineWord : List Char :=
  "#define ".toList

namespace Stamp

variable (m : Stamp)

def parameterList : List Char :=
  listed (m.parameters.map Parameter.text)

def text : List Char :=
  defineWord ++ (m.name.text ++ '(' :: (m.parameterList ++ ')' :: m.body.text))

def toMacro : Macro :=
  ⟨m.name.text, m.parameterList, m.body.text⟩

def template : Template :=
  ⟨m.body.kind.kind, splitArguments m.parameterList, m.body.name.pieces⟩

/-- A macro for types has its template, unless its head is continued on another line. -/
theorem template?_toMacro :
    m.toMacro.template? = if m.body.Straight then some m.template else none := by
  rw [Macro.template?, toMacro, m.body.findSome?_eq]
  split <;> rfl

theorem parameterList_not_mem {c : Char} (hcomma : c ≠ ',') (hword : isWordChar c = false)
    (hblank : isBlank c = false) : c ∉ m.parameterList := by
  intro hmem
  rcases exists_mem_of_mem_intercalate hmem with h | ⟨t, ht, hc⟩
  · exact hcomma (List.mem_singleton.mp h)
  · obtain ⟨p, -, rfl⟩ := List.mem_map.mp ht
    exact p.not_mem hword hblank hc

theorem macroHead?_text (rest : List Char) :
    macroHead? (defineWord ++ (m.name.text ++ '(' :: rest)) = some (m.name.text, rest) := by
  have hname : Text.name? ((m.name.text ++ '(' :: rest).dropWhile isGap) =
      some (m.name.text, '(' :: rest) := by
    obtain ⟨c, cs, hcons⟩ := List.exists_cons_of_ne_nil m.name.ne_nil
    have hblank := m.name.isBlank c (by rw [hcons]; exact List.mem_cons_self)
    have hne {d : Char} (hd : isBlank d = true) : c ≠ d := (Text.ne_of_isBlank hd hblank).symm
    have hc : isGap c = false := by
      simp [isGap, hne (show isBlank ' ' = true by decide),
        hne (show isBlank '\t' = true by decide)]
    rw [← Text.name?_append m.name.valid (by decide), hcons, List.cons_append,
      List.dropWhile_cons_of_neg (by simp [hc])]
  have hdefine (cs : List Char) : macroHead? (defineWord ++ cs) =
      (Text.name? (cs.dropWhile isGap)).bind fun r =>
        (Text.char? '(' r.2).bind fun cs => some (r.1, cs) := rfl
  rw [hdefine, hname]
  rfl

/-- The definition of a stamp is read as it is written, up to the end of its last line. -/
theorem macro?_text {tail : List Char} (htail : LineEnd tail) :
    macro? (m.text ++ tail) = some (m.toMacro, tail) := by
  have hopen : ∀ c ∈ m.parameterList, (c != ')') = true := fun c hc => by
    simpa using fun heq : c = ')' =>
      m.parameterList_not_mem (by decide) (by decide) (by decide) (heq ▸ hc)
  have hclose : (')' != ')') = false := rfl
  have hsplit : m.text ++ tail = defineWord ++ (m.name.text ++ '(' ::
      (m.parameterList ++ ')' :: (m.body.text ++ tail))) := by
    simp only [text, List.append_assoc, List.cons_append]
  have hread : macroTail? m.name.text (m.parameterList ++ ')' :: (m.body.text ++ tail)) =
      some (m.toMacro, tail) := by
    rw [macroTail?, Text.dropWhile_stop hopen hclose, Text.takeWhile_stop hopen hclose,
      Text.char?, if_pos rfl, Option.bind_eq_bind, Option.bind_some,
      logicalLine_tail m.one_line m.body.not_continued htail]
    rfl
  rw [macro?_eq, hsplit, macroHead?_text, Option.bind_some, hread]

/-- What stands for a piece of the name: the argument for a parameter, or the piece itself. -/
def substitute (values : List (List Char)) (piece : List Char) : List Char :=
  (((m.parameters.map fun p => p.name.text).zip values).lookup piece).getD piece

def pasted (values : List (List Char)) : List Char :=
  m.body.name.pieces.flatMap (m.substitute values)

end Stamp

/-! Invocations -/

/-- An invocation with an argument for each parameter, which gives an identifier. -/
structure Use where
  stamp : Stamp
  arguments : List Argument
  length_eq : arguments.length = stamp.parameters.length
  valid : Text.isName (stamp.pasted (arguments.map Argument.value)) = true

def Use.name (u : Use) : Identifier :=
  ⟨_, u.valid⟩

def Use.type (u : Use) : CType :=
  u.stamp.body.kind.type u.name

def Use.argumentList (u : Use) : List Char :=
  listed (u.arguments.map Argument.text)

theorem lookup_zip {α β : Type} [BEq α] [LawfulBEq α] {keys : List α} {values : List β}
    (hlength : values.length = keys.length) (a : α) :
    (keys.zip values).lookup a = (keys.idxOf? a).bind fun i => values[i]? := by
  induction keys generalizing values with
  | nil => rfl
  | cons k keys ih =>
    cases values with
    | nil => cases hlength
    | cons v values =>
      rw [List.zip_cons_cons, List.lookup_cons, List.idxOf?_cons]
      by_cases hk : k = a
      · simp [hk]
      · have hak : (a == k) = false := by simpa using Ne.symm hk
        rw [hak, if_neg (by simpa using hk), ih (Nat.succ.inj hlength), Option.bind_map]
        rfl

/-- With a value for each parameter every piece of a name stands for some text. -/
theorem Template.part?_eq_some {t : Template} {values : List (List Char)}
    (hlength : values.length = t.parameters.length) (piece : List Char) :
    t.part? values piece = some (((t.parameters.zip values).lookup piece).getD piece) := by
  rw [Template.part?, lookup_zip hlength]
  cases hindex : t.parameters.idxOf? piece with
  | none => rfl
  | some i =>
    obtain ⟨hi, -⟩ := List.idxOf?_eq_some_iff.mp hindex
    rw [← hlength] at hi
    simp [List.getElem?_eq_getElem hi]

theorem mapM_eq_some_map {α β : Type} {f : α → Option β} {g : α → β} {as : List α}
    (h : ∀ a ∈ as, f a = some (g a)) : as.mapM f = some (as.map g) := by
  induction as with
  | nil => rfl
  | cons a as ih =>
    rw [List.mapM_cons, h a List.mem_cons_self, ih fun b hb => h b (List.mem_cons_of_mem a hb)]
    rfl

namespace Use

variable (u : Use)

theorem parameters_template (hnil : u.stamp.parameters ≠ []) :
    u.stamp.template.parameters = u.stamp.parameters.map fun p => p.name.text := by
  have hcomma : ∀ t ∈ u.stamp.parameters.map Parameter.text, ',' ∉ t := by
    intro t ht
    obtain ⟨p, -, rfl⟩ := List.mem_map.mp ht
    exact p.not_mem (by decide) (by decide)
  rw [Stamp.template, Stamp.parameterList,
    splitArguments_listed hcomma fun h => hnil (List.map_eq_nil_iff.mp h), List.map_map]
  exact List.map_congr_left fun p _ => p.trim_text

/-- The arguments of an invocation are read back without the white space around them. -/
theorem splitArguments_argumentList (hnil : u.arguments ≠ []) :
    splitArguments u.argumentList = u.arguments.map Argument.value := by
  have hcomma : ∀ t ∈ u.arguments.map Argument.text, ',' ∉ t := by
    intro t ht
    obtain ⟨a, -, rfl⟩ := List.mem_map.mp ht
    exact a.not_mem (by decide)
  rw [argumentList, splitArguments_listed hcomma fun h => hnil (List.map_eq_nil_iff.mp h),
    List.map_map]
  rfl

/-- A piece of the name stands for its argument, or for itself. -/
theorem part?_eq {piece : List Char} (hpiece : piece ≠ []) :
    u.stamp.template.part? (splitArguments u.argumentList) piece =
      some (u.stamp.substitute (u.arguments.map Argument.value) piece) := by
  have hlength := u.length_eq
  by_cases hnil : u.stamp.parameters = []
  · -- Empty lists are read as one empty parameter and one empty argument, but no piece is empty.
    rw [hnil, List.length_nil, List.length_eq_zero_iff] at hlength
    have hparameters : u.stamp.template.parameters = [[]] := by
      rw [Stamp.template, Stamp.parameterList, hnil]
      rfl
    have harguments : splitArguments u.argumentList = [[]] := by
      rw [argumentList, hlength]
      rfl
    have hother : (piece == []) = false := by simpa using hpiece
    rw [Template.part?_eq_some (by rw [harguments, hparameters]), harguments, hparameters,
      Stamp.substitute, hnil, List.zip_cons_cons, List.lookup_cons, hother]
    rfl
  · have harguments : u.arguments ≠ [] := by
      rintro h
      rw [h, List.length_nil] at hlength
      exact hnil (List.length_eq_zero_iff.mp hlength.symm)
    rw [Template.part?_eq_some, u.parameters_template hnil,
      u.splitArguments_argumentList harguments, Stamp.substitute]
    rw [u.parameters_template hnil, u.splitArguments_argumentList harguments, List.length_map,
      List.length_map, hlength]

/-- An invocation gives its type, whatever its parameters, arguments and pieces are. -/
theorem expand?_eq : u.stamp.template.expand? (splitArguments u.argumentList) = some u.type := by
  have hparts : u.stamp.template.pieces.mapM
      (u.stamp.template.part? (splitArguments u.argumentList)) =
        some (u.stamp.body.name.pieces.map
          (u.stamp.substitute (u.arguments.map Argument.value))) :=
    mapM_eq_some_map fun piece hpiece =>
      u.part?_eq (u.stamp.body.name.ne_nil_of_mem piece hpiece)
  rw [Header.expand?_eq, hparts, Option.bind_some, ← List.flatMap_def, ← Stamp.pasted,
    if_pos u.valid]
  rfl

end Use

/-! Looking up a template -/

/-- Among macros with distinct names each one has its own template. -/
theorem lookup_template {ms : List Macro} {m : Macro} (hdistinct : (ms.map Macro.name).Nodup)
    (hm : m ∈ ms) : (ms.filterMap fun m => m.template?.map fun t => (m.name, t)).lookup m.name =
      m.template? := by
  induction ms with
  | nil => cases hm
  | cons n ms ih =>
    obtain ⟨hfresh, hrest⟩ := List.nodup_cons.mp hdistinct
    rcases List.mem_cons.mp hm with rfl | hm
    · cases htemplate : m.template? with
      | some t => simp [htemplate]
      | none =>
        rw [List.filterMap_cons_none (by rw [htemplate]; rfl), List.lookup_eq_none_iff]
        intro p hp
        obtain ⟨n, hn, hread⟩ := List.mem_filterMap.mp hp
        obtain ⟨t, -, rfl⟩ := Option.map_eq_some_iff.mp hread
        simpa using fun heq : m.name = n.name => hfresh (heq ▸ List.mem_map_of_mem hn)
    · have hother : (m.name == n.name) = false := by
        simpa using fun heq : m.name = n.name => hfresh (heq ▸ List.mem_map_of_mem hm)
      cases htemplate : n.template? with
      | some t =>
        rw [List.filterMap_cons_some (by rw [htemplate]; rfl), List.lookup_cons, hother,
          ih hrest hm]
      | none => rw [List.filterMap_cons_none (by rw [htemplate]; rfl), ih hrest hm]

/-- Under names that differ each macro is found with its own template. -/
theorem findTemplate?_of_mem {ms : List Macro} {m : Macro} (hdistinct : (ms.map Macro.name).Nodup)
    (hm : m ∈ ms) : findTemplate? ms m.name = m.template? := by
  rw [findTemplate?]
  refine lookup_template ?_ (List.mem_reverse.mpr hm)
  rw [List.map_reverse]
  exact (List.reverse_perm _).nodup_iff.mpr hdistinct

end LayoutGuard.Header
