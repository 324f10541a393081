import Mathlib.Data.List.Infix
import LayoutGuard.Proofs.Json.Scalar

/-!
The keys that a printed value shows. A word between quotes with a colon behind it stands
in the text of a value only where an object of the value has a field of that name: the
escaped quotes inside strings do not pass for keys. The one thing escaping leaves open is
where a key begins, since a key with a quote in it shows its last part as well.
-/

namespace LayoutGuard.Json

def keyText (k : String) : List Char :=
  '"' :: (k.toList ++ ['"', ':'])

/-- A name that is printed as it stands and begins like no punctuation. -/
structure Plain (k : String) : Prop where
  not_empty : k ≠ ""
  letters : ∀ c ∈ k.toList, c.isAlpha = true

/-- What may follow a value in a text. -/
def ValueEnd (rest : List Char) : Prop :=
  ∀ c ∈ rest.head?, c = ',' ∨ c = '\n'

mutual

/-- The names of all fields in a value, of those inside other fields too. -/
def Value.keys : Value → List String
  | .text _ => []
  | .word _ => []
  | .list items => itemKeys items
  | .object fields => fieldKeys fields

def itemKeys : List Value → List String
  | [] => []
  | v :: vs => v.keys ++ itemKeys vs

def fieldKeys : List (String × Value) → List String
  | [] => []
  | (k, v) :: fs => k :: (v.keys ++ fieldKeys fs)

end

/-! Quotes in strings -/

theorem infix_of_infix_append {a : Char} {l u t : List Char} (hu : a ∉ u)
    (h : a :: l <:+: u ++ t) : a :: l <:+: t := by
  induction u with
  | nil => exact h
  | cons b u ih =>
    rw [List.mem_cons, not_or] at hu
    rcases List.infix_cons_iff.mp h with hhere | hlater
    · exact absurd (List.cons_prefix_cons.mp hhere).1 hu.1
    · exact ih hu.2 hlater

/-- A character is printed as it stands or behind a backslash, and a quote that is printed
for it is the only character behind the backslash. -/
theorem escape_cases (c : Char) :
    (escape c = [c] ∧ c ≠ '"') ∨ ∃ u, escape c = '\\' :: u ∧ (u = ['"'] ∨ '"' ∉ u) := by
  unfold escape
  split
  · exact .inr ⟨_, rfl, .inl rfl⟩
  iterate 6 exact .inr ⟨_, rfl, .inr (by decide)⟩
  rename_i hquote _ _ _ _ _ _
  split
  · rename_i hcontrol
    have hdigit : ∀ n < 16, '"' ≠ Text.Quoted.hexDigit n := by decide
    refine .inr ⟨_, rfl, .inr ?_⟩
    simp only [List.mem_cons, List.not_mem_nil, not_or]
    exact ⟨by decide, by decide, by decide, hdigit _ (by omega), hdigit _ (by omega), not_false⟩
  · exact .inl ⟨rfl, hquote⟩

section Occurrence

variable {k : String} {rest : List Char}

theorem Plain.not_prefix_cons (hk : Plain k) {c : Char} (hc : c.isAlpha = false)
    (cs tail : List Char) : ¬ k.toList ++ tail <+: c :: cs := by
  intro h
  cases hletters : k.toList with
  | nil => exact hk.not_empty (String.toList_eq_nil_iff.mp hletters)
  | cons a as =>
    have ha := hk.letters a (by rw [hletters]; exact List.mem_cons_self)
    rw [hletters, List.cons_append, List.cons_prefix_cons] at h
    rw [h.1, hc] at ha
    exact absurd ha (by decide)

theorem not_prefix_of_valueEnd (hk : Plain k) (hrest : ValueEnd rest) (tail : List Char) :
    ¬ k.toList ++ tail <+: rest := by
  cases rest with
  | nil =>
    intro h
    exact hk.not_empty
      (String.toList_eq_nil_iff.mp (List.append_eq_nil_iff.mp (List.prefix_nil.mp h)).1)
  | cons c cs =>
    rcases hrest c rfl with rfl | rfl <;> exact hk.not_prefix_cons (by decide) cs tail

/-- Letters with a quote behind them at the beginning of a printed string are all of it. -/
theorem eq_of_prefix_escaped {letters s : List Char} (hletters : ∀ c ∈ letters, c.isAlpha = true)
    (h : letters ++ ['"', ':'] <+: s.flatMap escape ++ '"' :: rest) :
    letters = s ∧ rest.head? = some ':' := by
  induction letters generalizing s with
  | nil =>
    cases s with
    | nil =>
      obtain ⟨tail, htail⟩ := h
      cases htail
      exact ⟨rfl, rfl⟩
    | cons c s =>
      rcases escape_cases c with ⟨hc, hquote⟩ | ⟨u, hc, -⟩ <;>
        simp only [List.flatMap_cons, hc, List.nil_append, List.cons_append,
          List.cons_prefix_cons] at h
      · exact absurd h.1.symm hquote
      · exact absurd h.1 (by decide)
  | cons a letters ih =>
    have ha : a.isAlpha = true := hletters a List.mem_cons_self
    cases s with
    | nil =>
      simp only [List.flatMap_nil, List.nil_append, List.cons_append, List.cons_prefix_cons] at h
      rw [h.1] at ha
      exact absurd ha (by decide)
    | cons c s =>
      rcases escape_cases c with ⟨hc, -⟩ | ⟨u, hc, -⟩ <;>
        simp only [List.flatMap_cons, hc, List.nil_append, List.cons_append,
          List.cons_prefix_cons] at h
      · obtain ⟨rfl, hend⟩ := ih (fun d hd => hletters d (List.mem_cons_of_mem a hd)) h.2
        exact ⟨by rw [h.1], hend⟩
      · rw [h.1] at ha
        exact absurd ha (by decide)

/-- A key in the text of a string, or behind it, is the end of the string with a colon behind
it, or it stands behind the string. -/
theorem keyText_infix_escaped (hk : Plain k) (hrest : ¬ k.toList ++ ['"', ':'] <+: rest)
    {s : List Char} (h : keyText k <:+: s.flatMap escape ++ '"' :: rest) :
    (k.toList <:+ s ∧ rest.head? = some ':') ∨ keyText k <:+: rest := by
  induction s with
  | nil =>
    rcases List.infix_cons_iff.mp h with hhere | hlater
    · exact absurd (List.cons_prefix_cons.mp hhere).2 hrest
    · exact .inr hlater
  | cons c s ih =>
    have hnext : keyText k <:+: s.flatMap escape ++ '"' :: rest →
        (k.toList <:+ c :: s ∧ rest.head? = some ':') ∨ keyText k <:+: rest :=
      fun hin => (ih hin).imp_left (And.imp_left fun hs => hs.trans (List.suffix_cons c s))
    rcases escape_cases c with ⟨hc, hquote⟩ | ⟨u, hc, rfl | hu⟩ <;>
      rw [List.flatMap_cons, hc, List.append_assoc] at h
    · exact hnext (infix_of_infix_append (by simpa using hquote.symm) h)
    · -- the key may begin at the escaped quote
      have hafter := infix_of_infix_append (u := ['\\']) (by decide) h
      rcases List.infix_cons_iff.mp hafter with hhere | hlater
      · obtain ⟨rfl, hend⟩ :=
          eq_of_prefix_escaped hk.letters (List.cons_prefix_cons.mp hhere).2
        exact .inl ⟨List.suffix_cons _ _, hend⟩
      · exact hnext hlater
    · exact hnext (infix_of_infix_append (by simp [hu]) h)

/-- A key shows in a quoted text only as its ending, in front of a colon, or behind it. -/
theorem keyText_infix_quote (hk : Plain k) (hrest : ¬ k.toList ++ ['"', ':'] <+: rest)
    {s : String} (h : keyText k <:+: quote s ++ rest) :
    (k.toList <:+ s.toList ∧ rest.head? = some ':') ∨ keyText k <:+: rest := by
  have hquote : quote s ++ rest = '"' :: (s.toList.flatMap escape ++ '"' :: rest) := by
    simp [quote]
  rw [hquote] at h
  rcases List.infix_cons_iff.mp h with hhere | hlater
  · obtain ⟨hs, hend⟩ := eq_of_prefix_escaped hk.letters (List.cons_prefix_cons.mp hhere).2
    exact .inl ⟨by rw [hs], hend⟩
  · exact keyText_infix_escaped hk hrest hlater

/-! Values -/

def Ending (k : String) (keys : List String) : Prop :=
  ∃ key ∈ keys, k.toList <:+ key.toList

theorem Ending.left {before : List String} (h : Ending k before) (after : List String) :
    Ending k (before ++ after) := by
  obtain ⟨key, hkey, hend⟩ := h
  exact ⟨key, List.mem_append_left after hkey, hend⟩

theorem Ending.right {after : List String} (h : Ending k after) (before : List String) :
    Ending k (before ++ after) := by
  obtain ⟨key, hkey, hend⟩ := h
  exact ⟨key, List.mem_append_right before hkey, hend⟩

theorem quote_not_mem_newline (level : Nat) : '"' ∉ newline level := by
  simp [newline]

theorem valueEnd_newline (level : Nat) (rest : List Char) : ValueEnd (newline level ++ rest) := by
  intro c hc
  cases hc
  exact .inr rfl

theorem valueEnd_renderItems (level : Nat) (vs : List Value) (hrest : ValueEnd rest) :
    ValueEnd (renderItems level vs ++ rest) := by
  cases vs with
  | nil => exact hrest
  | cons v vs =>
    intro c hc
    rw [renderItems] at hc
    cases hc
    exact .inl rfl

/-- Further fields may follow a value. -/
theorem valueEnd_renderFields (level : Nat) (fs : List (String × Value)) (hrest : ValueEnd rest) :
    ValueEnd (renderFields level fs ++ rest) := by
  cases fs with
  | nil => exact hrest
  | cons f fs =>
    intro c hc
    rw [renderFields] at hc
    cases hc
    exact .inl rfl

/-- What a line with a field shows: its key, or something in the value or behind it. -/
theorem keyText_infix_field (hk : Plain k) {key : String}
    (h : keyText k <:+: quote key ++ ':' :: ' ' :: rest) :
    k.toList <:+ key.toList ∨ keyText k <:+: rest := by
  have hcolon := hk.not_prefix_cons (c := ':') (by decide) (' ' :: rest) ['"', ':']
  refine (keyText_infix_quote hk hcolon h).imp And.left fun hin => ?_
  exact infix_of_infix_append (u := [':', ' ']) (by decide) hin

theorem keyText_infix_newline {c : Char} (hc : c ≠ '"') {level : Nat}
    (h : keyText k <:+: c :: (newline level ++ rest)) : keyText k <:+: rest :=
  infix_of_infix_append (u := c :: newline level)
    (by simp [hc.symm, quote_not_mem_newline]) h

theorem keyText_infix_close {c : Char} (hc : c ≠ '"') {level : Nat}
    (h : keyText k <:+: newline level ++ c :: rest) : keyText k <:+: rest := by
  have hclose := infix_of_infix_append (quote_not_mem_newline level) h
  exact infix_of_infix_append (u := [c]) (by simp [hc.symm]) hclose

mutual

/-- A key in a printed value, or behind it, ends a key of the value or stands behind it. -/
theorem Value.ending_of_keyText (hk : Plain k) : ∀ (v : Value) (level : Nat) {rest : List Char},
    ValueEnd rest → keyText k <:+: v.render level ++ rest →
      Ending k v.keys ∨ keyText k <:+: rest
  | .text s, level, rest, hrest, h => by
    rcases keyText_infix_quote hk (not_prefix_of_valueEnd hk hrest _) h with ⟨-, hend⟩ | hlater
    · rcases hrest ':' hend with hcolon | hcolon <;> exact absurd hcolon (by decide)
    · exact .inr hlater
  | .word n, level, rest, hrest, h => by
    refine .inr (infix_of_infix_append (fun hquote => ?_) h)
    exact absurd (Text.Decimal.isDigit_of_mem_render hquote) (by decide)
  | .list [], level, rest, hrest, h => .inr (infix_of_infix_append (u := ['[', ']']) (by decide) h)
  | .list (v :: vs), level, rest, hrest, h => by
    rw [Value.render] at h
    simp only [List.cons_append, List.append_assoc, List.nil_append] at h
    -- the first item stands behind a bracket as the others stand behind a comma
    have hitems : keyText k <:+: renderItems (level + 1) (v :: vs) ++
        (newline level ++ ']' :: rest) := by
      rw [renderItems]
      simp only [List.cons_append, List.append_assoc]
      exact List.infix_cons (infix_of_infix_append (u := ['[']) (by decide) h)
    rw [Value.keys]
    exact (ending_of_keyText_items hk (v :: vs) (level + 1) (valueEnd_newline _ _) hitems).imp_right
      (keyText_infix_close (by decide))
  | .object [], level, rest, hrest, h =>
    .inr (infix_of_infix_append (u := ['\x7b', '\x7d']) (by decide) h)
  | .object ((key, v) :: fs), level, rest, hrest, h => by
    rw [Value.render] at h
    simp only [List.cons_append, List.append_assoc, List.nil_append] at h
    have hfields : keyText k <:+: renderFields (level + 1) ((key, v) :: fs) ++
        (newline level ++ '\x7d' :: rest) := by
      rw [renderFields]
      simp only [List.cons_append, List.append_assoc, List.nil_append]
      exact List.infix_cons (infix_of_infix_append (u := ['\x7b']) (by decide) h)
    rw [Value.keys]
    exact (ending_of_keyText_fields hk ((key, v) :: fs) (level + 1) (valueEnd_newline _ _)
      hfields).imp_right (keyText_infix_close (by decide))

theorem ending_of_keyText_items (hk : Plain k) : ∀ (vs : List Value) (level : Nat)
    {rest : List Char}, ValueEnd rest → keyText k <:+: renderItems level vs ++ rest →
      Ending k (itemKeys vs) ∨ keyText k <:+: rest
  | [], level, rest, hrest, h => .inr h
  | v :: vs, level, rest, hrest, h => by
    rw [renderItems] at h
    simp only [List.cons_append, List.append_assoc] at h
    rw [itemKeys]
    rcases v.ending_of_keyText hk level (valueEnd_renderItems level vs hrest)
        (keyText_infix_newline (by decide) h) with hitem | hlater
    · exact .inl (hitem.left _)
    · exact (ending_of_keyText_items hk vs level hrest hlater).imp_left fun hends => hends.right _

/-- A key that shows among printed fields is the ending of one of their keys. -/
theorem ending_of_keyText_fields (hk : Plain k) : ∀ (fs : List (String × Value)) (level : Nat)
    {rest : List Char}, ValueEnd rest → keyText k <:+: renderFields level fs ++ rest →
      Ending k (fieldKeys fs) ∨ keyText k <:+: rest
  | [], level, rest, hrest, h => .inr h
  | (key, v) :: fs, level, rest, hrest, h => by
    rw [renderFields] at h
    simp only [List.cons_append, List.append_assoc, List.nil_append] at h
    rw [fieldKeys]
    rcases keyText_infix_field hk (keyText_infix_newline (by decide) h) with hkey | hvalue
    · exact .inl ⟨key, List.mem_cons_self, hkey⟩
    rcases v.ending_of_keyText hk level (valueEnd_renderFields level fs hrest) hvalue
        with hfield | hlater
    · exact .inl ((hfield.left _).right [key])
    · exact (ending_of_keyText_fields hk fs level hrest hlater).imp_left
        fun hends => (hends.right v.keys).right [key]

end

/-- A printed value shows no key but the ends of its own. -/
theorem ending_of_keyText_render (hk : Plain k) {v : Value} {level : Nat}
    (h : keyText k <:+: v.render level) : Ending k v.keys := by
  have hrest : ValueEnd [] := fun _ hc => by cases hc
  refine (v.ending_of_keyText hk level hrest ((List.append_nil _).symm ▸ h)).resolve_right ?_
  exact fun hin => List.cons_ne_nil _ _ (List.infix_nil.mp hin)

/-! Fields show their keys -/

theorem escape_of_isAlpha {c : Char} (hc : c.isAlpha = true) : escape c = [c] := by
  unfold escape
  split
  iterate 7 exact absurd hc (by decide)
  refine if_neg fun hcontrol => ?_
  have hcontrols : ∀ n < 0x20, (Char.ofNat n).isAlpha = false := by decide
  have hfalse := hcontrols c.toNat hcontrol
  rw [Char.ofNat_toNat, hc] at hfalse
  cases hfalse

theorem quote_of_letters {s : String} (hs : ∀ c ∈ s.toList, c.isAlpha = true) :
    quote s = '"' :: (s.toList ++ ['"']) := by
  have hflat : s.toList.flatMap escape = s.toList := by
    rw [List.flatMap_congr fun c hc => escape_of_isAlpha (hs c hc)]
    exact List.flatMap_singleton' _
  rw [quote, hflat, List.cons_append]

/-- The key of a field shows where the fields are printed. -/
theorem keyText_infix_renderFields (hk : Plain k) (level : Nat) {v : Value}
    {fs : List (String × Value)} (hfield : (k, v) ∈ fs) :
    keyText k <:+: renderFields level fs := by
  induction fs with
  | nil => cases hfield
  | cons f fs ih =>
    rcases List.mem_cons.mp hfield with rfl | hlater
    · rw [renderFields, quote_of_letters hk.letters]
      exact ⟨',' :: newline level, ' ' :: (v.render level ++ renderFields level fs),
        by simp [keyText]⟩
    · obtain ⟨key, w⟩ := f
      rw [renderFields]
      exact (ih hlater).trans (List.suffix_append _ _).isInfix

/-- An object shows the keys of its fields. -/
theorem keyText_infix_render (hk : Plain k) (level : Nat) {v : Value}
    {fs : List (String × Value)} (hfield : (k, v) ∈ fs) :
    keyText k <:+: (Value.object fs).render level := by
  have hin := keyText_infix_renderFields hk (level + 1) hfield
  cases fs with
  | nil => cases hfield
  | cons f fs =>
    obtain ⟨key, w⟩ := f
    rw [renderFields] at hin
    simp only [List.cons_append, List.append_assoc] at hin
    have hbehind := infix_of_infix_append (u := [',']) (by decide) hin
    rw [Value.render]
    refine List.infix_cons (hbehind.trans ?_)
    exact ⟨[], newline level ++ ['\x7d'], by simp [newline]⟩

end Occurrence

end LayoutGuard.Json
