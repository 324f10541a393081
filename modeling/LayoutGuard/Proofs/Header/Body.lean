import Mathlib.Data.List.Basic
import LayoutGuard.Header.Block
import LayoutGuard.Proofs.Text.Word

/-!
Bodies of structs and unions as trees: plain members, each up to its semicolon, and
members that have anonymous bodies of their own. The brace that closes the body of a
definition is the one behind the text of its tree.
-/

namespace LayoutGuard.Header

/-- The types that are written with a body. -/
inductive Composite
  | struct
  | union
deriving DecidableEq, Repr

def Composite.kind : Composite → CType.Kind
  | struct => .struct
  | union => .union

def Composite.keyword : Composite → List Char
  | struct => "struct".toList
  | union => "union".toList

/-- An ASCII identifier of C. -/
structure Identifier where
  text : List Char
  valid : Text.isName text = true

/-- White space between members. -/
structure Gap where
  text : List Char
  all_blank : text.all Text.isBlank = true

/-- A character that is neither a brace nor part of a comment or a macro definition. -/
def isPlain (c : Char) : Bool :=
  c != '\x7b' && c != '\x7d' && c != '/' && c != '#'

/-- A plain member without its semicolon. -/
structure FieldText where
  text : List Char
  all_plain : text.all isPlain = true

inductive Body
  | done (gap : Gap)
  | field (member : FieldText) (rest : Body)
  | nested (gap : Gap) (kind : Composite) (inner : Body) (name : Identifier) (rest : Body)

def Body.text : Body → List Char
  | done gap => gap.text
  | field member rest => member.text ++ ';' :: rest.text
  | nested gap kind inner name rest =>
    gap.text ++ (kind.keyword ++ ' ' :: '\x7b' :: (inner.text ++ '\x7d' :: ' ' ::
      (name.text ++ ';' :: rest.text)))

theorem Gap.blank (g : Gap) : ∀ c ∈ g.text, Text.isBlank c = true :=
  List.all_eq_true.mp g.all_blank

theorem FieldText.plain (f : FieldText) :
    ∀ c ∈ f.text, c ≠ '\x7b' ∧ c ≠ '\x7d' ∧ c ≠ '/' ∧ c ≠ '#' := by
  intro c hc
  have hplain := List.all_eq_true.mp f.all_plain c hc
  simp only [isPlain, Bool.and_eq_true, bne_iff_ne] at hplain
  obtain ⟨⟨⟨hopen, hclose⟩, hslash⟩, hsign⟩ := hplain
  exact ⟨hopen, hclose, hslash, hsign⟩

theorem Identifier.isNameRest (n : Identifier) : ∀ c ∈ n.text, Text.isNameRest c = true :=
  fun _ => Text.isNameRest_of_mem_name n.valid

theorem Identifier.isWordChar (n : Identifier) : ∀ c ∈ n.text, Text.isWordChar c = true :=
  fun c hc => Text.isWordChar_of_isNameRest (n.isNameRest c hc)

theorem Identifier.ne_nil (n : Identifier) : n.text ≠ [] := by
  intro h
  have hvalid := n.valid
  rw [h] at hvalid
  cases hvalid

theorem Composite.isNameRest_keyword (k : Composite) :
    ∀ c ∈ k.keyword, Text.isNameRest c = true := by
  cases k <;> exact List.all_eq_true.mp (by decide)

theorem Composite.isWordChar_keyword (k : Composite) :
    ∀ c ∈ k.keyword, Text.isWordChar c = true :=
  fun c hc => Text.isWordChar_of_isNameRest (k.isNameRest_keyword c hc)

theorem Composite.keyword_ne_nil (k : Composite) : k.keyword ≠ [] := by
  cases k <;> decide

/-! Characters that bodies are made of -/

/-- A character that is no part of a comment or a macro definition. -/
def Unsigned (c : Char) : Prop :=
  c ≠ '/' ∧ c ≠ '#'

instance (c : Char) : Decidable (Unsigned c) :=
  inferInstanceAs (Decidable (_ ∧ _))

/-- No comment begins in such a text. -/
theorem slash_not_mem {u : List Char} (hu : ∀ c ∈ u, Unsigned c) : '/' ∉ u :=
  fun h => (hu '/' h).1 rfl

theorem sign_not_mem {u : List Char} (hu : ∀ c ∈ u, Unsigned c) : '#' ∉ u :=
  fun h => (hu '#' h).2 rfl

theorem unsigned_of_isNameRest {c : Char} (h : Text.isNameRest c = true) : Unsigned c := by
  constructor <;> rintro rfl <;> revert h <;> decide

theorem unsigned_of_isBlank {c : Char} (h : Text.isBlank c = true) : Unsigned c := by
  constructor <;> rintro rfl <;> revert h <;> decide

theorem Gap.unsigned (g : Gap) : ∀ c ∈ g.text, Unsigned c :=
  fun c hc => unsigned_of_isBlank (g.blank c hc)

theorem Identifier.unsigned (n : Identifier) : ∀ c ∈ n.text, Unsigned c :=
  fun c hc => unsigned_of_isNameRest (n.isNameRest c hc)

theorem Composite.unsigned_keyword (k : Composite) : ∀ c ∈ k.keyword, Unsigned c :=
  fun c hc => unsigned_of_isNameRest (k.isNameRest_keyword c hc)

/-- The body of a definition holds no comment and no macro definition. -/
theorem Body.unsigned (b : Body) : ∀ c ∈ b.text, Unsigned c := by
  induction b with
  | done gap => exact gap.unsigned
  | field member rest ih =>
    simp only [Body.text, List.mem_append, List.mem_cons]
    rintro c (hc | rfl | hc)
    · exact (member.plain c hc).2.2
    · decide
    · exact ih c hc
  | nested gap kind inner name rest ihInner ihRest =>
    simp only [Body.text, List.mem_append, List.mem_cons]
    rintro c (hc | hc | rfl | rfl | hc | rfl | rfl | hc | rfl | hc)
    · exact gap.unsigned c hc
    · exact kind.unsigned_keyword c hc
    · decide
    · decide
    · exact ihInner c hc
    · decide
    · decide
    · exact name.unsigned c hc
    · decide
    · exact ihRest c hc

/-! The closing brace -/

def Braceless (c : Char) : Prop :=
  c ≠ '\x7b' ∧ c ≠ '\x7d'

instance (c : Char) : Decidable (Braceless c) :=
  inferInstanceAs (Decidable (_ ∧ _))

theorem braceless_of_isNameRest {c : Char} (h : Text.isNameRest c = true) : Braceless c := by
  constructor <;> rintro rfl <;> revert h <;> decide

theorem braceless_of_isBlank {c : Char} (h : Text.isBlank c = true) : Braceless c := by
  constructor <;> rintro rfl <;> revert h <;> decide

section Close

variable {depth : Nat} {cs block rest : List Char}

theorem closeBlock_cons {c : Char} (hc : Braceless c)
    (h : closeBlock depth cs = some (block, rest)) :
    closeBlock depth (c :: cs) = some (c :: block, rest) := by
  rw [closeBlock.eq_def]
  simp only [if_neg hc.1, if_neg hc.2, h, Option.map_some]

/-- Characters that open and close nothing are read over. -/
theorem closeBlock_append {u : List Char} (hu : ∀ c ∈ u, Braceless c)
    (h : closeBlock depth cs = some (block, rest)) :
    closeBlock depth (u ++ cs) = some (u ++ block, rest) := by
  induction u with
  | nil => exact h
  | cons c u ih =>
    exact closeBlock_cons (hu c List.mem_cons_self)
      (ih fun d hd => hu d (List.mem_cons_of_mem c hd))

theorem closeBlock_open (h : closeBlock (depth + 1) cs = some (block, rest)) :
    closeBlock depth ('\x7b' :: cs) = some ('\x7b' :: block, rest) := by
  rw [closeBlock.eq_def]
  simp only [if_true, h, Option.map_some]

theorem closeBlock_close (h : closeBlock (depth + 1) cs = some (block, rest)) :
    closeBlock (depth + 2) ('\x7d' :: cs) = some ('\x7d' :: block, rest) := by
  rw [closeBlock, if_neg (by decide), if_pos rfl]
  simp only [h, Option.map_some]

/-- A body closes all braces that it opens. -/
theorem closeBlock_body (b : Body) (h : closeBlock (depth + 1) cs = some (block, rest)) :
    closeBlock (depth + 1) (b.text ++ cs) = some (b.text ++ block, rest) := by
  induction b generalizing depth cs block with
  | done gap => exact closeBlock_append (fun c hc => braceless_of_isBlank (gap.blank c hc)) h
  | field member rest ih =>
    simp only [Body.text, List.append_assoc, List.cons_append]
    exact closeBlock_append (fun c hc => ⟨(member.plain c hc).1, (member.plain c hc).2.1⟩)
      (closeBlock_cons (by decide) (ih h))
  | nested gap kind inner name rest ihInner ihRest =>
    simp only [Body.text, List.append_assoc, List.cons_append]
    have hname := closeBlock_append (fun c hc => braceless_of_isNameRest (name.isNameRest c hc))
      (closeBlock_cons (c := ';') (by decide) (ihRest h))
    have hinner := ihInner (closeBlock_close (closeBlock_cons (c := ' ') (by decide) hname))
    exact closeBlock_append (fun c hc => braceless_of_isBlank (gap.blank c hc))
      (closeBlock_append (fun c hc => braceless_of_isNameRest (kind.isNameRest_keyword c hc))
        (closeBlock_cons (by decide) (closeBlock_open hinner)))

/-- A block with any blocks inside it is read up to its own closing brace. -/
theorem closeBlock_block (b : Body) (rest : List Char) :
    closeBlock 0 ('\x7b' :: (b.text ++ '\x7d' :: rest)) =
      some ('\x7b' :: (b.text ++ ['\x7d']), rest) :=
  closeBlock_open (closeBlock_body b (by rw [closeBlock, if_neg (by decide), if_pos rfl]))

end Close

end LayoutGuard.Header
