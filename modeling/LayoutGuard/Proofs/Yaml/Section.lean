import Mathlib.Data.List.Nodup
import Mathlib.Data.Option.Basic
import LayoutGuard.Proofs.Traversal
import LayoutGuard.Yaml.Schema

/-!
Reading a section by its keys. Each field sets a part of the section that no other field
touches, so a mapping with known and distinct keys gives every part the value behind its
key, or leaves it as it was when there is no such key. The order of the keys does not count.
The first key that is not known ends the reading.
-/

namespace LayoutGuard.Yaml

/-! ## Values in a tree -/

namespace Document

variable (d : Document)

/-- The text of a scalar, which may be given by an alias. -/
def text? (n : Node) : Option String :=
  match d.resolve n with
  | .scalar s _ => some s.text
  | _ => none

/-- The value behind the first key with a given text. -/
def value? (name : String) (es : List (Node × Node)) : Option Node :=
  (es.find? fun e => d.text? e.1 = some name).map Prod.snd

/-- The keys of a mapping are distinct texts from a list. -/
structure Keys (known : List String) (es : List (Node × Node)) : Prop where
  known : ∀ e ∈ es, ∃ name ∈ known, d.text? e.1 = some name
  distinct : (es.map fun e => d.text? e.1).Nodup

def IsTexts (n : Node) (ts : List String) : Prop :=
  ∃ items m, d.resolve n = .sequence items m ∧
    List.Forall₂ (fun item t => d.text? item = some t) items ts

def IsMapping (n : Node) (P : List (Node × Node) → Prop) : Prop :=
  ∃ es m, d.resolve n = .mapping es m ∧ P es

/-- The second list has one entry more, whose key is not among the known ones. -/
inductive Stray (key : String) (known : List String) :
    List (Node × Node) → List (Node × Node) → Prop
  | entry {before after : List (Node × Node)} {k v : Node} (hk : d.text? k = some key)
      (hkey : key ∉ known) : Stray key known (before ++ after) (before ++ (k, v) :: after)

/-- The document is a mapping and nothing else. -/
structure Whole (es : List (Node × Node)) (m : Mark) : Prop where
  root : d.root = .mapping es m
  failure : d.failure = none
  more : d.more = false

end Document

def nullWords : List String :=
  ["null", "Null", "NULL", "~"]

namespace Scalar

/-- Nothing at all or a word for nothing, unless it is set off as a text. -/
def IsNull (s : Scalar) : Prop :=
  s.style = .plain ∧ ((s.tag = none ∧ s.text ∈ "" :: nullWords) ∨
    (s.tag = some Schema.nullTag ∧ s.text ∈ nullWords))

/-- Any other text, or one that is set off by quotes or a tag. -/
def IsString (s : Scalar) : Prop :=
  s.style ≠ .plain ∨ (s.tag = none ∧ s.text ∉ "" :: nullWords) ∨
    ∃ tag, s.tag = some tag ∧ tag ≠ Schema.nullTag

end Scalar

/-- A text that may be missing. -/
inductive Document.IsOptionalText (d : Document) (n : Node) : Option String → Prop
  | null {s : Scalar} {m : Mark} (hn : d.resolve n = .scalar s m) (hs : s.IsNull) :
      IsOptionalText d n none
  | string {s : Scalar} {m : Mark} (hn : d.resolve n = .scalar s m) (hs : s.IsString) :
      IsOptionalText d n (some s.text)

variable {d : Document} {known : List String} {es rest : List (Node × Node)} {e : Node × Node}
  {n v : Node} {name : String}

namespace Document

theorem value?_cons (name : String) (e : Node × Node) (es : List (Node × Node)) :
    d.value? name (e :: es) = if d.text? e.1 = some name then some e.2 else d.value? name es := by
  rw [value?, List.find?_cons]
  by_cases h : d.text? e.1 = some name
  · simp [h]
  · simp [h, value?]

/-- Among distinct keys the first one with a text is the only one. -/
theorem value?_of_mem (hdistinct : (es.map fun e => d.text? e.1).Nodup) (he : e ∈ es)
    (hname : d.text? e.1 = some name) : d.value? name es = some e.2 := by
  induction es with
  | nil => cases he
  | cons e' es ih =>
    rw [List.map_cons, List.nodup_cons] at hdistinct
    rw [value?_cons]
    rcases List.mem_cons.mp he with rfl | he
    · rw [if_pos hname]
    · have hne : d.text? e'.1 ≠ some name := fun h =>
        hdistinct.1 (List.mem_map.mpr ⟨e, he, hname.trans h.symm⟩)
      rw [if_neg hne, ih hdistinct.2 he]

/-- The entries of a mapping that is the value behind a key. -/
theorem exists_of_value? {κ : Type} {P : List (Node × Node) → κ → Prop} {c? : Option κ}
    {inner : List (Node × Node)} {m : Mark}
    (h : Option.Rel (fun n c => d.IsMapping n fun inner => P inner c) (d.value? name es) c?)
    (hdistinct : (es.map fun e => d.text? e.1).Nodup) (he : e ∈ es)
    (hname : d.text? e.1 = some name) (hv : d.resolve e.2 = .mapping inner m) :
    ∃ c, P inner c := by
  rw [value?_of_mem hdistinct he hname] at h
  obtain ⟨c, -, inner', m', hv', hc⟩ := exists_of_rel h
  rw [hv] at hv'
  cases hv'
  exact ⟨c, hc⟩

end Document

/-! ## Values as they are read -/

namespace Schema

theorem exists_scalar (h : d.text? n = some name) :
    ∃ s m, d.resolve n = .scalar s m ∧ s.text = name := by
  rw [Document.text?] at h
  split at h
  next s m hn => exact ⟨s, m, hn, Option.some.inj h⟩
  next => cases h

/-- A scalar is read as its text. -/
theorem text_eq_ok (expected path : String) (h : d.text? n = some name) :
    text d expected path n = .ok name := by
  obtain ⟨s, m, hn, rfl⟩ := exists_scalar h
  rw [text, hn]

theorem forall₂_zipIdx {α β : Type} {R : α → β → Prop} {as : List α} {bs : List β}
    (h : List.Forall₂ R as bs) (k : Nat) :
    List.Forall₂ (fun p b => R p.1 b) (as.zipIdx k) bs := by
  induction h generalizing k with
  | nil => exact .nil
  | cons hab _ ih => exact .cons hab (ih (k + 1))

/-- A list of scalars is read as its texts. -/
theorem texts_eq_ok {ts : List String} (expected path : String) (h : d.IsTexts n ts) :
    texts d expected path n = .ok ts := by
  obtain ⟨items, m, hn, hitems⟩ := h
  rw [texts, hn]
  apply mapM_ok_of_forall₂
  exact (forall₂_zipIdx hitems 0).imp fun p _ hp => text_eq_ok expected (element path p.2) hp

/-- The reader of nulls knows these words and no others. -/
theorem isNull_iff (s : String) : Meaning.isNull s.toList = true ↔ s ∈ nullWords := by
  simp [Meaning.isNull, nullWords]

theorem isNull_or_isBlank_iff {s : Scalar} (hplain : s.style = .plain) :
    (Meaning.isNull s.text.toList || s.isBlank) = true ↔ s.text ∈ "" :: nullWords := by
  rw [Bool.or_eq_true, isNull_iff, List.mem_cons, or_comm]
  simp [Scalar.isBlank, hplain]

/-- Nothing is read as none, and any other scalar as its text. -/
theorem optionalText_eq_ok {t? : Option String} (spot : Spot) (path : String)
    (h : d.IsOptionalText n t?) : optionalText d spot path n = .ok t? := by
  cases h with
  | null hn hs =>
    obtain ⟨hplain, ⟨htag, hword⟩ | ⟨htag, hword⟩⟩ := hs
    · have hnull := (isNull_or_isBlank_iff hplain).mpr hword
      simp only [optionalText, hn, hplain, htag, hnull, ne_eq, not_true_eq_false, if_false, if_true]
    · have hnull := (isNull_iff _).mpr hword
      simp only [optionalText, hn, hplain, htag, hnull, ne_eq, not_true_eq_false, if_false, if_true]
  | @string s m hn hs =>
    by_cases hplain : s.style = .plain
    · rcases hs with hquoted | ⟨htag, hword⟩ | ⟨tag, htag, hother⟩
      · exact absurd hplain hquoted
      · have hnull := mt (isNull_or_isBlank_iff hplain).mp hword
        simp only [optionalText, hn, hplain, htag, hnull, ne_eq, not_true_eq_false, if_false,
          Bool.false_eq_true]
      · simp only [optionalText, hn, hplain, htag, hother, ne_eq, not_true_eq_false,
          not_false_eq_true, if_false, if_true]
    · simp only [optionalText, hn, ne_eq, hplain, not_false_eq_true, if_true]

theorem key_eq_ok (path : String) {s : Scalar} {m : Mark} (h : d.resolve n = .scalar s m) :
    ∃ label, key d path n = .ok ⟨s.text, m, label⟩ := by
  cases n with
  | scalar s' m' =>
    cases h
    exact ⟨s.text, rfl⟩
  | reference anchor m' =>
    refine ⟨"?", ?_⟩
    simp only [key, h]
  | _ => cases h

end Schema

/-! ## Fields and the parts that they set -/

namespace Field

variable {σ α : Type}

/-- The field reads a value, wherever it stands, as a change to its section. -/
def Reads (f : Field σ) (d : Document) (v : Node) (g : σ → σ) : Prop :=
  ∀ spot path, f.change d spot path v = .ok g

/-- The field never changes a part of its section. -/
def Keeps (f : Field σ) (get : σ → α) : Prop :=
  ∀ d spot path v g, f.change d spot path v = .ok g → ∀ s, get (g s) = get s

theorem keeps_of_map {β : Type} {name : String} {get : σ → α} {set : β → σ → σ}
    (read : Document → Spot → String → Node → Except Failure β)
    (h : ∀ b s, get (set b s) = get s) :
    Keeps ⟨name, fun d spot path n => (read d spot path n).map set⟩ get := by
  intro d spot path v g hg s
  obtain ⟨b, -, rfl⟩ := map_eq_ok_iff.mp hg
  exact h b s

end Field

section Builders

open Schema

variable {σ α τ : Type} {get : σ → α} {expected : String}

@[simp] theorem name_textField {set : String → σ → σ} :
    (textField name expected set).name = name := rfl

@[simp] theorem name_optionalField {set : Option String → σ → σ} :
    (optionalField name set).name = name := rfl

@[simp] theorem name_textsField {set : List String → σ → σ} :
    (textsField name expected set).name = name := rfl

@[simp] theorem name_sectionField {inner : List (Field τ)} {default : τ} {set : τ → σ → σ} :
    (sectionField name expected inner default set).name = name := rfl

@[simp] theorem keeps_textField {set : String → σ → σ} (h : ∀ t s, get (set t s) = get s) :
    (textField name expected set).Keeps get :=
  Field.keeps_of_map (fun d _ => text d expected) h

@[simp] theorem keeps_optionalField {set : Option String → σ → σ}
    (h : ∀ t s, get (set t s) = get s) :
    (optionalField name set).Keeps get :=
  Field.keeps_of_map optionalText h

@[simp] theorem keeps_textsField {set : List String → σ → σ} (h : ∀ ts s, get (set ts s) = get s) :
    (textsField name expected set).Keeps get :=
  Field.keeps_of_map (fun d _ => texts d expected) h

@[simp] theorem keeps_sectionField {inner : List (Field τ)} {default : τ} {set : τ → σ → σ}
    (h : ∀ t s, get (set t s) = get s) :
    (sectionField name expected inner default set).Keeps get :=
  Field.keeps_of_map (fun d _ path => sectionOf d inner expected path default) h

theorem reads_textField {set : String → σ → σ} {t : String} (h : d.text? v = some t) :
    (textField name expected set).Reads d v (set t) := fun _ path =>
  map_eq_ok_iff.mpr ⟨t, text_eq_ok expected path h, rfl⟩

theorem reads_optionalField {set : Option String → σ → σ} {t? : Option String}
    (h : d.IsOptionalText v t?) : (optionalField name set).Reads d v (set t?) := fun spot path =>
  map_eq_ok_iff.mpr ⟨t?, optionalText_eq_ok spot path h, rfl⟩

theorem reads_textsField {set : List String → σ → σ} {ts : List String} (h : d.IsTexts v ts) :
    (textsField name expected set).Reads d v (set ts) := fun _ path =>
  map_eq_ok_iff.mpr ⟨ts, texts_eq_ok expected path h, rfl⟩

theorem reads_sectionField {inner : List (Field τ)} {default t : τ} {set : τ → σ → σ}
    (h : ∀ path, sectionOf d inner expected path default v = .ok t) :
    (sectionField name expected inner default set).Reads d v (set t) := fun _ path =>
  map_eq_ok_iff.mpr ⟨t, h path, rfl⟩

end Builders

/-- One field of a section sets a part of it, to what the value behind its key means, and
no other field touches this part. -/
structure Governs {σ α : Type} (fields : List (Field σ)) (d : Document) (name : String)
    (get : σ → α) (Means : Node → α → Prop) : Prop where
  sets : ∀ v a, Means v a → ∃ f g, (fields.find? fun f => f.name = name) = some f ∧
    f.Reads d v g ∧ ∀ s, get (g s) = a
  keeps : ∀ f ∈ fields, f.name ≠ name → f.Keeps get

/-- An entry whose key is the name of a field that reads its value. -/
def Readable {σ : Type} (fields : List (Field σ)) (d : Document) (e : Node × Node) : Prop :=
  ∃ name f g, d.text? e.1 = some name ∧ (fields.find? fun f => f.name = name) = some f ∧
    f.Reads d e.2 g

/-! ## Going over entries -/

/-- Reading goes over entries: their names join those that were seen before, and their
values change the section. -/
inductive Passes {σ : Type} (fields : List (Field σ)) (d : Document) :
    List (Node × Node) → List String → σ → List String → σ → Prop
  | nil (seen : List String) (value : σ) : Passes fields d [] seen value seen value
  | cons {k v : Node} {name : String} {f : Field σ} {g : σ → σ} {es : List (Node × Node)}
      {seen seen' : List String} {value result : σ} (hk : d.text? k = some name)
      (hf : (fields.find? fun f => f.name = name) = some f) (hseen : name ∉ seen)
      (hg : f.Reads d v g) (h : Passes fields d es (name :: seen) (g value) seen' result) :
      Passes fields d ((k, v) :: es) seen value seen' result

section Entries

variable {σ α : Type} {fields : List (Field σ)} {seen seen' : List String} {value result : σ}

open Schema

/-- Entries that the fields can read, with distinct keys, are all read. -/
theorem exists_passes (seen : List String) (value : σ)
    (hreadable : ∀ e ∈ es, Readable fields d e)
    (hdistinct : (es.map fun e => d.text? e.1).Nodup)
    (hseen : ∀ e ∈ es, ∀ name ∈ seen, d.text? e.1 ≠ some name) :
    ∃ seen' result, Passes fields d es seen value seen' result := by
  induction es generalizing seen value with
  | nil => exact ⟨seen, value, .nil seen value⟩
  | cons e es ih =>
    obtain ⟨⟨name, f, g, hk, hf, hg⟩, hreadable⟩ := List.forall_mem_cons.mp hreadable
    obtain ⟨hfirst, hseen⟩ := List.forall_mem_cons.mp hseen
    rw [List.map_cons, List.nodup_cons] at hdistinct
    have hfresh : ∀ e' ∈ es, d.text? e'.1 ≠ some name := fun e' he' h =>
      hdistinct.1 (List.mem_map.mpr ⟨e', he', h.trans hk.symm⟩)
    obtain ⟨seen', result, hrest⟩ := ih (name :: seen) (g value) hreadable hdistinct.2
      fun e' he' => List.forall_mem_cons.mpr ⟨hfresh e' he', hseen e' he'⟩
    exact ⟨seen', result, .cons hk hf (fun h => hfirst name h hk) hg hrest⟩

namespace Passes

/-- Reading goes on behind the entries as if it began there. -/
theorem entries_append (h : Passes fields d es seen value seen' result) (spot : Spot)
    (rest : List (Node × Node)) :
    entries d fields spot seen value (es ++ rest) = entries d fields spot seen' result rest := by
  induction h with
  | nil => rfl
  | @cons _ _ _ _ _ _ seen _ _ _ hk hf hseen hg _ ih =>
    obtain ⟨s, m, hn, rfl⟩ := exists_scalar hk
    obtain ⟨label, hkey⟩ := key_eq_ok spot.path hn
    have hcontains : seen.contains s.text = false := by simpa using hseen
    rw [List.cons_append, entries, hkey]
    simp only [bind, Except.bind, hf, hcontains, Bool.false_eq_true, if_false, hg spot, ih]

/-- Only keys of the mapping are added to those that were seen. -/
theorem mem_seen (h : Passes fields d es seen value seen' result) (hname : name ∈ seen') :
    name ∈ seen ∨ ∃ e ∈ es, d.text? e.1 = some name := by
  induction h with
  | nil => exact Or.inl hname
  | cons hk _ _ _ _ ih =>
    rcases ih hname with hname | ⟨e, he, h⟩
    · rcases List.mem_cons.mp hname with rfl | hname
      · exact Or.inr ⟨_, List.mem_cons_self, hk⟩
      · exact Or.inl hname
    · exact Or.inr ⟨e, List.mem_cons_of_mem _ he, h⟩

theorem value?_of_seen (h : Passes fields d es seen value seen' result) (hname : name ∈ seen) :
    d.value? name es = none := by
  induction h with
  | nil => rfl
  | @cons _ _ own _ _ _ _ _ _ _ hk _ hseen _ _ ih =>
    have hne : ¬d.text? _ = some name := fun h => hseen (Option.some.inj (hk.symm.trans h) ▸ hname)
    rw [Document.value?_cons, if_neg hne, ih (List.mem_cons_of_mem own hname)]

/-- A part of the section becomes what the value behind its key means. Without such a key it
stays as it was. -/
theorem get_eq {get : σ → α} {Means : Node → α → Prop} {a? : Option α}
    (h : Passes fields d es seen value seen' result) (hgoverns : Governs fields d name get Means)
    (hmeans : Option.Rel Means (d.value? name es) a?) : get result = a?.getD (get value) := by
  induction h generalizing a? with
  | nil =>
    cases hmeans
    rfl
  | @cons k v own f g _ _ _ value _ hk hf _ hg hrest ih =>
    rw [Document.value?_cons] at hmeans
    by_cases hname : d.text? k = some name
    · obtain rfl : own = name := Option.some.inj (hk.symm.trans hname)
      rw [if_pos hname] at hmeans
      obtain ⟨a, rfl, ha⟩ := exists_of_rel hmeans
      obtain ⟨f', g', hf', hg', hset⟩ := hgoverns.sets v a ha
      obtain rfl : f = f' := Option.some.inj (hf.symm.trans hf')
      obtain rfl : g = g' := Except.ok.inj ((hg ⟨"", .start⟩ "").symm.trans (hg' _ ""))
      rw [hrest.value?_of_seen List.mem_cons_self] at ih
      rw [ih .none, Option.getD_none, hset, Option.getD_some]
    · rw [if_neg hname] at hmeans
      have hown : f.name = own := by simpa using List.find?_some hf
      have hother : f.name ≠ name := fun h => hname ((h ▸ hown) ▸ hk)
      rw [ih hmeans, hgoverns.keeps f (List.mem_of_find?_eq_some hf) hother d ⟨"", .start⟩ "" v g
        (hg _ "") value]

end Passes

/-! ## Whole sections -/

/-- An entry is readable when its value means something for the field of its key. -/
theorem Governs.readable {get : σ → α} {Means : Node → α → Prop} {a? : Option α}
    (h : Governs fields d name get Means) (hmeans : Option.Rel Means (d.value? name es) a?)
    (hdistinct : (es.map fun e => d.text? e.1).Nodup) (he : e ∈ es)
    (hname : d.text? e.1 = some name) : Readable fields d e := by
  rw [Document.value?_of_mem hdistinct he hname] at hmeans
  obtain ⟨a, -, ha⟩ := exists_of_rel hmeans
  obtain ⟨f, g, hf, hg, -⟩ := h.sets e.2 a ha
  exact ⟨name, f, g, hname, hf, hg⟩

/-- A mapping all of whose entries can be read makes a section. -/
theorem exists_sectionOf {m : Mark} (hreadable : ∀ e ∈ es, Readable fields d e)
    (hdistinct : (es.map fun e => d.text? e.1).Nodup) (hn : d.resolve n = .mapping es m)
    (value : σ) :
    ∃ seen result, Passes fields d es [] value seen result ∧
      ∀ expected path, sectionOf d fields expected path value n = .ok result := by
  obtain ⟨seen, result, h⟩ := exists_passes [] value hreadable hdistinct (by simp)
  refine ⟨seen, result, h, fun expected path => ?_⟩
  have hrun := h.entries_append ⟨path, m⟩ []
  rw [List.append_nil] at hrun
  rw [sectionOf, hn]
  exact hrun

/-! ## Keys that are not known -/

/-- A refusal because of a key that is not among the known ones. -/
def Refused (key : String) (known : List String) (f : Failure) : Prop :=
  ∃ path m, f = .mismatch (.unknownField key known) path m

/-- A key of no field is refused, whatever readable entries stand around it. -/
theorem exists_refused {key : String} {es' : List (Node × Node)}
    (h : d.Stray key (fields.map Field.name) es es') (hreadable : ∀ e ∈ es, Readable fields d e)
    (hdistinct : (es.map fun e => d.text? e.1).Nodup) (spot : Spot) (value : σ) :
    ∃ f, Refused key (fields.map Field.name) f ∧
      entries d fields spot [] value es' = .error f := by
  obtain @⟨before, after, k, v, hk, hunknown⟩ := h
  rw [List.map_append] at hdistinct
  obtain ⟨seen, result, hpasses⟩ := exists_passes [] value
    (fun e he => hreadable e (List.mem_append_left after he)) hdistinct.of_append_left (by simp)
  obtain ⟨s, m, hn, rfl⟩ := exists_scalar hk
  obtain ⟨label, hkey⟩ := key_eq_ok spot.path hn
  have hfind : (fields.find? fun f => f.name = s.text) = none := by
    rw [List.find?_eq_none]
    intro f hf hname
    exact hunknown (List.mem_map.mpr ⟨f, hf, of_decide_eq_true hname⟩)
  refine ⟨_, ⟨spot.path, m, rfl⟩, ?_⟩
  rw [hpasses.entries_append, entries, hkey]
  simp only [bind, Except.bind, hfind]

/-- A key of no field is refused inside a section too. -/
theorem exists_refused_section {key expected : String} {τ : Type} {set : σ → τ → τ}
    {es' : List (Node × Node)} {m : Mark} (h : d.Stray key (fields.map Field.name) es es')
    (hreadable : ∀ e ∈ es, Readable fields d e)
    (hdistinct : (es.map fun e => d.text? e.1).Nodup) (hv : d.resolve v = .mapping es' m)
    (spot : Spot) (path : String) :
    ∃ f, Refused key (fields.map Field.name) f ∧
      (sectionField name expected fields value set).change d spot path v = .error f := by
  obtain ⟨f, hrefused, hf⟩ := exists_refused h hreadable hdistinct ⟨path, m⟩ value
  refine ⟨f, hrefused, map_eq_error_iff.mpr ?_⟩
  rw [sectionOf, hv]
  exact hf

/-- A refused value of a field ends the reading of its section. -/
theorem exists_refused_value {before after : List (Node × Node)} {k v' : Node} {f : Field σ}
    {P : Failure → Prop} (hreadable : ∀ e ∈ before, Readable fields d e)
    (hdistinct : ((before ++ (k, v) :: after).map fun e => d.text? e.1).Nodup)
    (hk : d.text? k = some name) (hf : (fields.find? fun f => f.name = name) = some f)
    (hv : ∀ spot path, ∃ e, P e ∧ f.change d spot path v' = .error e)
    (spot : Spot) (value : σ) :
    ∃ e, P e ∧ entries d fields spot [] value (before ++ (k, v') :: after) = .error e := by
  rw [List.map_append, List.map_cons, List.nodup_append] at hdistinct
  obtain ⟨hbefore, -, hapart⟩ := hdistinct
  obtain ⟨seen, result, hpasses⟩ := exists_passes [] value hreadable hbefore (by simp)
  have hnew : name ∉ seen := by
    intro hname
    rcases hpasses.mem_seen hname with hname | ⟨e, he, h⟩
    · cases hname
    · exact hapart _ (List.mem_map_of_mem he) _ List.mem_cons_self (h.trans hk.symm)
  obtain ⟨s, m, hn, rfl⟩ := exists_scalar hk
  obtain ⟨label, hkey⟩ := key_eq_ok spot.path hn
  have hcontains : seen.contains s.text = false := by simpa using hnew
  obtain ⟨e, hrefused, he⟩ := hv spot (child spot.path label)
  refine ⟨e, hrefused, ?_⟩
  rw [hpasses.entries_append, entries, hkey]
  simp only [bind, Except.bind, hf, hcontains, Bool.false_eq_true, if_false, he]

end Entries

/-! ## Whole documents -/

namespace Document

variable {α : Type} {read : Node → Except Failure α}

/-- A document that is one mapping decodes to what its mapping is read as. -/
theorem decode_eq_ok {m : Mark} {a : α} (h : d.Whole es m) (hread : read (.mapping es m) = .ok a) :
    d.decode read = .ok a := by
  rw [decode, h.root, hread]
  simp [bind, Except.bind, h.failure, h.more, pure, Except.pure]

theorem decode_eq_error {m : Mark} {f : Failure} (h : d.Whole es m)
    (hread : read (.mapping es m) = .error f) : d.decode read = .error f := by
  rw [decode, h.root, hread]
  rfl

end Document

end LayoutGuard.Yaml
