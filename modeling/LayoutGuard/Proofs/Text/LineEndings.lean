import LayoutGuard.Proofs.Text.Squeeze
import LayoutGuard.Proofs.Traversal

/-!
The line endings of a text. A text whose lines end in line feeds is compared with one in
which carriage returns stand before some of these. A reader that treats both characters
alike finds the same in the two texts and leaves texts that differ in the same way.
-/

namespace LayoutGuard.Text

def addReturns (cs : List Char) : List Char :=
  cs.flatMap fun c => if c = '\n' then ['\r', '\n'] else [c]

/-- The first text holds no carriage return, and the second one is the first with carriage
returns put in before some of its line feeds. -/
inductive WithReturns : List Char → List Char → Prop
  | nil : WithReturns [] []
  | char {c : Char} {cs ds : List Char} (plain : c ≠ '\r') :
      WithReturns cs ds → WithReturns (c :: cs) (c :: ds)
  | feed {cs ds : List Char} : WithReturns cs ds → WithReturns ('\n' :: cs) ('\r' :: '\n' :: ds)

/-- Where there is no carriage return yet, putting them in changes only line endings. -/
theorem withReturns_addReturns {cs : List Char} (h : '\r' ∉ cs) :
    WithReturns cs (addReturns cs) := by
  induction cs with
  | nil => exact .nil
  | cons c cs ih =>
    rw [List.mem_cons, not_or] at h
    rw [addReturns, List.flatMap_cons, ← addReturns]
    by_cases hc : c = '\n'
    · subst hc
      exact .feed (ih h.2)
    · rw [if_neg hc]
      exact .char (Ne.symm h.1) (ih h.2)

theorem squeeze_return_feed (cs : List Char) :
    squeeze ('\r' :: '\n' :: cs) = squeeze ('\n' :: cs) := by
  have hreturn : isBlank '\r' = true := by decide
  have hfeed : isBlank '\n' = true := by decide
  rw [squeeze_cons_blank hreturn, squeeze_cons_blank hfeed, skipBlanks_cons_blank isBlank_space,
    skipBlanks_skipBlanks]

namespace WithReturns

variable {cs ds : List Char}

/-- Squeezed texts do not show their line endings. -/
theorem squeeze_eq (h : WithReturns cs ds) : squeeze cs = squeeze ds := by
  induction h with
  | nil => rfl
  | char _ _ ih => exact squeeze_cons_congr _ ih
  | @feed cs ds _ ih => rw [squeeze_return_feed, squeeze_cons_congr '\n' ih]

section Runs

variable {p : Char → Bool}

theorem takeWhile (h : WithReturns cs ds) (hp : p '\r' = p '\n') :
    WithReturns (cs.takeWhile p) (ds.takeWhile p) := by
  induction h with
  | nil => exact .nil
  | @char c cs ds plain _ ih =>
    rw [List.takeWhile_cons, List.takeWhile_cons]
    split
    · exact .char plain ih
    · exact .nil
  | @feed cs ds _ ih =>
    cases hfeed : p '\n' with
    | true => simpa [hp, hfeed] using ih.feed
    | false => simpa [hp, hfeed] using WithReturns.nil

theorem dropWhile (h : WithReturns cs ds) (hp : p '\r' = p '\n') :
    WithReturns (cs.dropWhile p) (ds.dropWhile p) := by
  induction h with
  | nil => exact .nil
  | @char c cs ds plain hrest ih =>
    rw [List.dropWhile_cons, List.dropWhile_cons]
    split
    · exact ih
    · exact .char plain hrest
  | @feed cs ds hrest ih =>
    cases hfeed : p '\n' with
    | true => simpa [hp, hfeed] using ih
    | false => simpa [hp, hfeed] using hrest.feed

theorem head?_any (h : WithReturns cs ds) (hp : p '\r' = p '\n') :
    cs.head?.any p = ds.head?.any p := by
  cases h with
  | nil => rfl
  | char _ _ => rfl
  | feed _ => exact hp.symm

/-- A run that stops at line endings is the same in both texts. -/
theorem takeWhile_eq (h : WithReturns cs ds) (hreturn : p '\r' = false) (hfeed : p '\n' = false) :
    cs.takeWhile p = ds.takeWhile p := by
  induction h with
  | nil => rfl
  | char _ _ ih => rw [List.takeWhile_cons, List.takeWhile_cons, ih]
  | feed _ _ => simp [hreturn, hfeed]

end Runs

/-! Readers -/

theorem isPrefixOf? {w : List Char} (hreturn : '\r' ∉ w) (hfeed : '\n' ∉ w)
    (h : WithReturns cs ds) :
    Option.Rel WithReturns (w.isPrefixOf? cs) (w.isPrefixOf? ds) := by
  induction w generalizing cs ds with
  | nil =>
    have hnil (es : List Char) : [].isPrefixOf? es = some es := by cases es <;> rfl
    rw [hnil, hnil]
    exact .some h
  | cons e w ih =>
    rw [List.mem_cons, not_or] at hreturn hfeed
    cases h with
    | nil => exact .none
    | @char c cs ds _ hrest =>
      rw [List.isPrefixOf?, List.isPrefixOf?]
      split
      · exact ih hreturn.2 hfeed.2 hrest
      · exact .none
    | feed _ =>
      simp only [List.isPrefixOf?, beq_iff_eq, Ne.symm hreturn.1, Ne.symm hfeed.1, if_false]
      exact .none

theorem literal? {word : String} (hreturn : '\r' ∉ word.toList) (hfeed : '\n' ∉ word.toList)
    (h : WithReturns cs ds) :
    Option.Rel WithReturns (Text.literal? word cs) (Text.literal? word ds) :=
  isPrefixOf? hreturn hfeed h

theorem char? {wanted : Char} (hreturn : '\r' ≠ wanted) (hfeed : '\n' ≠ wanted)
    (h : WithReturns cs ds) :
    Option.Rel WithReturns (Text.char? wanted cs) (Text.char? wanted ds) := by
  cases h with
  | nil => exact .none
  | char _ hrest =>
    rw [Text.char?, Text.char?]
    split
    · exact .some hrest
    · exact .none
  | feed _ =>
    rw [Text.char?, Text.char?, if_neg hreturn, if_neg hfeed]
    exact .none

theorem name? (h : WithReturns cs ds) :
    Option.Rel (fun r q => r.1 = q.1 ∧ WithReturns r.2 q.2) (Text.name? cs) (Text.name? ds) := by
  have hreturn : isWordChar '\r' = false := by decide
  have hfeed : isWordChar '\n' = false := by decide
  cases h with
  | nil => exact .none
  | @char c cs ds _ hrest =>
    rw [Text.name?, Text.name?]
    split
    · refine .some ⟨?_, hrest.dropWhile (hreturn.trans hfeed.symm)⟩
      exact congrArg (c :: ·) (hrest.takeWhile_eq hreturn hfeed)
    · exact .none
  | feed _ =>
    rw [Text.name?, Text.name?, isNameStart_of_isWordChar hreturn,
      isNameStart_of_isWordChar hfeed]
    exact .none

theorem isPrefixOf_eq {w : List Char} (hreturn : '\r' ∉ w) (hfeed : '\n' ∉ w)
    (h : WithReturns cs ds) : w.isPrefixOf cs = w.isPrefixOf ds := by
  rw [← List.isSome_isPrefixOf?_eq_isPrefixOf, ← List.isSome_isPrefixOf?_eq_isPrefixOf]
  exact isSome_eq_of_rel (isPrefixOf? hreturn hfeed h)

/-- What stands before a mark that lies within a line. -/
theorem before {mark : List Char} (hreturn : '\r' ∉ mark) (hfeed : '\n' ∉ mark)
    (h : WithReturns cs ds) : WithReturns (Text.before mark cs) (Text.before mark ds) := by
  induction h with
  | nil => exact .nil
  | @char c cs ds plain hrest ih =>
    rw [Text.before, Text.before, isPrefixOf_eq hreturn hfeed (.char plain hrest)]
    split
    · exact .nil
    · exact .char plain ih
  | @feed cs ds hrest ih =>
    cases mark with
    | nil => exact .nil
    | cons e mark =>
      rw [List.mem_cons, not_or] at hreturn hfeed
      have hnone {c : Char} (hc : c ≠ e) (es : List Char) :
          Text.before (e :: mark) (c :: es) = c :: Text.before (e :: mark) es := by
        simp [Text.before, List.isPrefixOf, Ne.symm hc]
      rw [hnone hreturn.1, hnone hfeed.1, hnone hfeed.1]
      exact .feed ih

end WithReturns

end LayoutGuard.Text
