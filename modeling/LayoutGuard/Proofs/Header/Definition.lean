import LayoutGuard.Proofs.Header.Places

/-!
Definitions that are read in full. A tagged struct or union gives its type where its
keyword stands, and a typedef gives its name and tag where the word `typedef` stands,
however its body is nested.
-/

namespace LayoutGuard.Header

open Text (isWordChar)

theorem compositeKeyword?_keyword (k : Composite) (rest : List Char) :
    compositeKeyword? (k.keyword ++ rest) = some (k.kind, rest) := by
  cases k with
  | struct =>
    have hread : Text.literal? "struct" (Composite.struct.keyword ++ rest) = some rest :=
      Text.literal?_append "struct" rest
    rw [compositeKeyword?, hread]
    rfl
  | union =>
    have hother : Text.literal? "struct" (Composite.union.keyword ++ rest) = none := rfl
    have hread : Text.literal? "union" (Composite.union.keyword ++ rest) = some rest :=
      Text.literal?_append "union" rest
    rw [compositeKeyword?, hother, hread]
    rfl

def Composite.type (k : Composite) (n : Identifier) : CType :=
  ⟨k.kind, String.ofList n.text⟩

/-! Tagged types -/

/-- A word that begins like an ASCII name, as tags are read. -/
structure Tag where
  text : List Char
  starts : text.head?.any Text.isNameStart = true
  isWordChar : ∀ c ∈ text, isWordChar c = true

def Tag.type (t : Tag) (k : Composite) : CType :=
  ⟨k.kind, String.ofList t.text⟩

theorem Tag.ne_nil (t : Tag) : t.text ≠ [] := by
  intro h
  have hstarts := t.starts
  rw [h] at hstarts
  cases hstarts

theorem Tag.name?_text (t : Tag) {d : Char} (hd : Text.isWordChar d = false) (rest : List Char) :
    Text.name? (t.text ++ d :: rest) = some (t.text, d :: rest) := by
  obtain ⟨text, hstarts, hword⟩ := t
  cases text with
  | nil => cases hstarts
  | cons c cs =>
    exact Text.name?_word hstarts (fun e he => hword e (List.mem_cons_of_mem c he)) hd rest

def Identifier.tag (n : Identifier) : Tag where
  text := n.text
  starts := by
    obtain ⟨text, hvalid⟩ := n
    cases text with
    | nil => cases hvalid
    | cons c cs => exact (Bool.and_eq_true _ _ ▸ hvalid).1
  isWordChar := n.isWordChar

/-- The head of a tagged definition is read with any white space between its parts. -/
theorem taggedHead?_spaced (k : Composite) (t : Tag) {gap gap' : List Char} (hnil : gap ≠ [])
    (hgap : ∀ c ∈ gap, Text.isBlank c = true) (hgap' : ∀ c ∈ gap', Text.isBlank c = true)
    (rest : List Char) :
    taggedHead? (k.keyword ++ (gap ++ (t.text ++ (gap' ++ '\x7b' :: rest)))) =
      some (t.type k) := by
  have hblanks := Text.blanks?_gap_word hnil hgap t.ne_nil t.isWordChar (gap' ++ '\x7b' :: rest)
  have hname : Text.name? (t.text ++ (gap' ++ '\x7b' :: rest)) =
      some (t.text, gap' ++ '\x7b' :: rest) := by
    have hsign : Text.isWordChar '\x7b' = false := by decide
    obtain ⟨d, tail, htail, hd⟩ := Text.exists_sign
      (fun c hc => Text.isWordChar_of_isBlank (hgap' c hc)) hsign rest
    rw [htail, t.name?_text hd]
  have hbrace : Text.skipBlanks (gap' ++ '\x7b' :: rest) = '\x7b' :: rest := by
    rw [Text.skipBlanks_gap hgap', Text.skipBlanks_of_not_blank (by decide)]
  simp only [taggedHead?, compositeKeyword?_keyword, Option.bind_eq_bind, Option.bind_some,
    hblanks, hname, hbrace]
  rfl

/-- At the keyword of a tagged definition that definition is found. -/
theorem definition?_spaced {before : Option Char} (hbefore : before.any isWordChar = false)
    (ms : List Macro) (k : Composite) (t : Tag) {gap gap' : List Char} (hnil : gap ≠ [])
    (hgap : ∀ c ∈ gap, Text.isBlank c = true) (hgap' : ∀ c ∈ gap', Text.isBlank c = true)
    (rest : List Char) :
    definition? ms (before, k.keyword ++ (gap ++ (t.text ++ (gap' ++ '\x7b' :: rest)))) =
      some (.tagged (t.type k)) := by
  have hedge : ∀ cs, Text.atWordEdge before (k.keyword ++ cs) = true := by
    intro cs
    rw [Text.atWordEdge, hbefore]
    cases k <;> rfl
  have htypedef : ∀ cs, typedef? (k.keyword ++ cs) = none := by
    cases k <;> exact fun _ => rfl
  rw [definition?, hedge, htypedef, taggedHead?_spaced k t hnil hgap hgap']
  rfl

theorem definition?_tagged (ms : List Macro) (k : Composite) (n : Identifier) (rest : List Char) :
    definition? ms (none, k.keyword ++ ' ' :: (n.text ++ ' ' :: '\x7b' :: rest)) =
      some (.tagged (k.type n)) := by
  have hspace : ∀ c ∈ [' '], Text.isBlank c = true := List.all_eq_true.mp (by decide)
  exact definition?_spaced rfl ms k n.tag (List.cons_ne_nil ' ' []) hspace hspace rest

/-! Typedefs -/

def typedefWord : List Char :=
  "typedef".toList

theorem typedefWord_ne_nil : typedefWord ≠ [] := by
  decide

theorem isNameRest_typedefWord : ∀ c ∈ typedefWord, Text.isNameRest c = true :=
  List.all_eq_true.mp (by decide)

/-- The tag of a typedef, if it has one, and the space behind it. -/
def tagText (tag : Option Identifier) : List Char :=
  tag.elim [] fun t => t.text ++ [' ']

theorem name?_tagText (tag : Option Identifier) (rest : List Char) :
    Text.name? (Text.skipBlanks (' ' :: (tagText tag ++ '\x7b' :: rest))) =
      tag.map fun t => (t.text, ' ' :: '\x7b' :: rest) := by
  rw [Text.skipBlanks_cons_blank (by decide)]
  cases tag with
  | none => rfl
  | some t =>
    have htext : tagText (some t) ++ '\x7b' :: rest = t.text ++ ' ' :: '\x7b' :: rest :=
      List.append_assoc _ _ _
    rw [htext, Text.skipBlanks_word t.ne_nil t.isWordChar, Text.name?_append t.valid (by decide)]
    rfl

theorem skipBlanks_tagText (tag : Option Identifier) (rest : List Char) :
    Text.skipBlanks ((tag.map fun t => (t.text, ' ' :: '\x7b' :: rest)).elim
      (Text.skipBlanks (' ' :: (tagText tag ++ '\x7b' :: rest))) Prod.snd) = '\x7b' :: rest := by
  cases tag <;> rfl

/-- A typedef is read up to its semicolon, its tag included. -/
theorem typedef?_text (k : Composite) (tag : Option Identifier) (b : Body) (n : Identifier)
    (rest : List Char) :
    typedef? (typedefWord ++ ' ' :: (k.keyword ++ ' ' :: (tagText tag ++
        '\x7b' :: (b.text ++ '\x7d' :: ' ' :: (n.text ++ ';' :: rest))))) =
      some (String.ofList n.text,
        tag.map fun t => (k.type t).spelling) := by
  have hread (cs : List Char) : Text.literal? "typedef" (typedefWord ++ cs) = some cs :=
    Text.literal?_append "typedef" cs
  have hblanks := Text.blanks?_space_word k.keyword_ne_nil k.isWordChar_keyword
  have hname := Text.name?_append n.valid (d := ';') (by decide) rest
  have hspace : Text.skipBlanks (' ' :: (n.text ++ ';' :: rest)) = n.text ++ ';' :: rest := by
    rw [Text.skipBlanks_cons_blank (by decide), Text.skipBlanks_word n.ne_nil n.isWordChar]
  simp only [typedef?, hread, Option.bind_eq_bind, Option.bind_some, hblanks,
    compositeKeyword?_keyword, name?_tagText, skipBlanks_tagText, closeBlock_block, hspace, hname]
  rw [guard, List.head?_cons, if_pos rfl]
  cases tag <;> rfl

/-- At the word that begins a typedef that definition is found. -/
theorem definition?_typedef (k : Composite) (tag : Option Identifier) (b : Body) (n : Identifier)
    (rest : List Char) :
    definition? [] (none, typedefWord ++ ' ' :: (k.keyword ++ ' ' :: (tagText tag ++
        '\x7b' :: (b.text ++ '\x7d' :: ' ' :: (n.text ++ ';' :: rest))))) =
      some (.typedef (String.ofList n.text)
        (tag.map fun t => (k.type t).spelling)) := by
  have hedge : ∀ cs, Text.atWordEdge none (typedefWord ++ cs) = true := fun _ => rfl
  rw [definition?, hedge, typedef?_text]
  rfl

/-! A scan over a definition -/

/-- A block behind a mere name defines nothing. -/
theorem definitionsFrom_named_block (n : Identifier) (b : Body) (rest : List Char) :
    definitionsFrom none (n.text ++ ' ' :: '\x7b' :: (b.text ++ '\x7d' :: rest)) =
      definitionsFrom none rest := by
  rw [definitionsFrom_last_word n.ne_nil n.isWordChar, definitionsFrom_body]

/-- A tagged definition with its body gives one definition. -/
theorem definitionsFrom_tagged (k : Composite) (n : Identifier) (b : Body) (rest : List Char) :
    definitionsFrom none
        (k.keyword ++ ' ' :: (n.text ++ ' ' :: '\x7b' :: (b.text ++ '\x7d' :: rest))) =
      Definition.tagged (k.type n) :: definitionsFrom none rest := by
  rw [definitionsFrom_word k.keyword_ne_nil k.isWordChar_keyword (by decide), definition?_tagged,
    definitionsFrom_named_block]
  rfl

/-- Both the typedef and its tag are found, the typedef first. -/
theorem definitionsFrom_typedef (k : Composite) (tag : Option Identifier) (b : Body)
    (n : Identifier) (rest : List Char) :
    definitionsFrom none (typedefWord ++ ' ' :: (k.keyword ++ ' ' :: (tagText tag ++
        '\x7b' :: (b.text ++ '\x7d' :: ' ' :: (n.text ++ ';' :: rest))))) =
      Definition.typedef (String.ofList n.text)
          (tag.map fun t => (k.type t).spelling) ::
        ((tag.toList.map fun t => Definition.tagged (k.type t)) ++
          definitionsFrom none rest) := by
  have hword : ∀ c ∈ typedefWord, isWordChar c = true := fun c hc =>
    Text.isWordChar_of_isNameRest (isNameRest_typedefWord c hc)
  rw [definitionsFrom_word typedefWord_ne_nil hword (by decide), definition?_typedef]
  cases tag with
  | none =>
    rw [tagText, Option.elim, List.nil_append,
      definitionsFrom_last_word k.keyword_ne_nil k.isWordChar_keyword, definitionsFrom_body,
      ← List.cons_append, definitionsFrom_member (open_brace_not_mem_name n)]
    rfl
  | some t =>
    rw [tagText, Option.elim, List.append_assoc, List.cons_append, List.nil_append,
      definitionsFrom_tagged, ← List.cons_append,
      definitionsFrom_member (open_brace_not_mem_name n)]
    rfl

end LayoutGuard.Header
