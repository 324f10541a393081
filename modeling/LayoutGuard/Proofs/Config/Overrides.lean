import LayoutGuard.Proofs.Config.Origin
import LayoutGuard.Proofs.Yaml.Section

/-!
A configuration file as a list of changes. A mapping that names some of the fields, in any
order and also inside sections, gives the default configuration with exactly these fields
replaced. A key that no field has is refused on every level.
-/

namespace LayoutGuard

open Yaml

/-! ## Changes -/

/-- The probe settings that a configuration file may name. -/
structure ProbeSettings.Changes where
  compiler : Option (Option String) := none
  header : Option String := none
  includeDirs : Option (List Path) := none
  defines : Option (List String) := none
  flags : Option (List String) := none

/-- The lint settings that a configuration file may name. -/
structure LintSettings.Changes where
  namePrefix : Option String := none
  implementationMarker : Option (Option String) := none
  ignored : Option (List String) := none

structure Config.Changes where
  package : Option String := none
  output : Option Path := none
  probe : Option ProbeSettings.Changes := none
  lint : Option LintSettings.Changes := none

/-- Replaces what is named and keeps the rest. -/
def ProbeSettings.Changes.apply (c : Changes) (s : ProbeSettings) : ProbeSettings where
  compiler := c.compiler.getD s.compiler
  header := c.header.getD s.header
  includeDirs := c.includeDirs.getD s.includeDirs
  defines := c.defines.getD s.defines
  flags := c.flags.getD s.flags

def LintSettings.Changes.apply (c : Changes) (s : LintSettings) : LintSettings where
  namePrefix := c.namePrefix.getD s.namePrefix
  implementationMarker := c.implementationMarker.getD s.implementationMarker
  ignored := c.ignored.getD s.ignored

def Config.Changes.apply (c : Changes) (s : Config) : Config where
  package := c.package.getD s.package
  output := c.output.getD s.output
  probe := (c.probe.map fun p => p.apply s.probe).getD s.probe
  lint := (c.lint.map fun l => l.apply s.lint).getD s.lint

/-! ## Changes as mappings -/

namespace Config

def probeNames : List String :=
  ["compiler", "header", "include_dirs", "defines", "flags"]

def lintNames : List String :=
  ["prefix", "implementation_marker", "ignore"]

def names : List String :=
  ["package", "output", "probe", "lint"]

end Config

section Written

variable (d : Document) (es : List (Node × Node))

def IsPaths (n : Node) (ps : List Path) : Prop :=
  d.IsTexts n (ps.map Path.text)

/-- The keys of a mapping name the changed probe settings, and behind them are the values. -/
structure ProbeSettings.Changes.Written (c : Changes) : Prop where
  keys : d.Keys Config.probeNames es
  compiler : Option.Rel d.IsOptionalText (d.value? "compiler" es) c.compiler
  header : Option.Rel (fun n t => d.text? n = some t) (d.value? "header" es) c.header
  includeDirs : Option.Rel (IsPaths d) (d.value? "include_dirs" es) c.includeDirs
  defines : Option.Rel d.IsTexts (d.value? "defines" es) c.defines
  flags : Option.Rel d.IsTexts (d.value? "flags" es) c.flags

structure LintSettings.Changes.Written (c : Changes) : Prop where
  keys : d.Keys Config.lintNames es
  namePrefix : Option.Rel (fun n t => d.text? n = some t) (d.value? "prefix" es) c.namePrefix
  implementationMarker : Option.Rel d.IsOptionalText (d.value? "implementation_marker" es)
    c.implementationMarker
  ignored : Option.Rel d.IsTexts (d.value? "ignore" es) c.ignored

structure Config.Changes.Written (c : Changes) : Prop where
  keys : d.Keys Config.names es
  package : Option.Rel (fun n t => d.text? n = some t) (d.value? "package" es) c.package
  output : Option.Rel (fun n (p : Path) => d.text? n = some p.text) (d.value? "output" es) c.output
  probe : Option.Rel (fun n p => d.IsMapping n fun inner => ProbeSettings.Changes.Written d inner p)
    (d.value? "probe" es) c.probe
  lint : Option.Rel (fun n l => d.IsMapping n fun inner => LintSettings.Changes.Written d inner l)
    (d.value? "lint" es) c.lint

/-- The second mapping is the first one with one more key in it, or in one of its sections,
that is no name of a field there. -/
inductive Config.Stray (key : String) :
    List String → List (Node × Node) → List (Node × Node) → Prop
  | outside {es es' : List (Node × Node)} (h : d.Stray key names es es') : Stray key names es es'
  | inside {before after inner inner' : List (Node × Node)} {k v v' : Node} {m m' : Mark}
      {name : String} {known : List String}
      (hsection : (name, known) ∈ [("probe", probeNames), ("lint", lintNames)])
      (hk : d.text? k = some name) (hv : d.resolve v = .mapping inner m)
      (hv' : d.resolve v' = .mapping inner' m') (h : d.Stray key known inner inner') :
      Stray key known (before ++ (k, v) :: after) (before ++ (k, v') :: after)

end Written

/-! ## Fields -/

namespace Config

open Yaml.Schema

variable {d : Document} {es : List (Node × Node)} {n : Node}

/-! Probe settings -/

theorem governs_compiler :
    Governs probeFields d "compiler" ProbeSettings.compiler d.IsOptionalText where
  sets _ _ h := ⟨_, _, rfl, reads_optionalField h, fun _ => rfl⟩
  keeps := by simp [probeFields]

theorem governs_header :
    Governs probeFields d "header" ProbeSettings.header fun n t => d.text? n = some t where
  sets _ _ h := ⟨_, _, rfl, reads_textField h, fun _ => rfl⟩
  keeps := by simp [probeFields]

theorem governs_includeDirs :
    Governs probeFields d "include_dirs" ProbeSettings.includeDirs (IsPaths d) where
  sets _ ps h := ⟨_, _, rfl, reads_textsField h, fun _ => List.map_map.trans (List.map_id ps)⟩
  keeps := by simp [probeFields]

theorem governs_defines :
    Governs probeFields d "defines" ProbeSettings.defines d.IsTexts where
  sets _ _ h := ⟨_, _, rfl, reads_textsField h, fun _ => rfl⟩
  keeps := by simp [probeFields]

theorem governs_flags :
    Governs probeFields d "flags" ProbeSettings.flags d.IsTexts where
  sets _ _ h := ⟨_, _, rfl, reads_textsField h, fun _ => rfl⟩
  keeps := by simp [probeFields]

theorem readable_probe {c : ProbeSettings.Changes} (h : c.Written d es) :
    ∀ e ∈ es, Readable probeFields d e := by
  intro e he
  obtain ⟨name, hname, hkey⟩ := h.keys.known e he
  simp only [probeNames, List.mem_cons, List.not_mem_nil, or_false] at hname
  rcases hname with rfl | rfl | rfl | rfl | rfl
  · exact governs_compiler.readable h.compiler h.keys.distinct he hkey
  · exact governs_header.readable h.header h.keys.distinct he hkey
  · exact governs_includeDirs.readable h.includeDirs h.keys.distinct he hkey
  · exact governs_defines.readable h.defines h.keys.distinct he hkey
  · exact governs_flags.readable h.flags h.keys.distinct he hkey

/-- A mapping of probe settings is read as the changes that it names. -/
theorem sectionOf_probe {c : ProbeSettings.Changes} {m : Mark} (hn : d.resolve n = .mapping es m)
    (h : c.Written d es) (s : ProbeSettings) (expected path : String) :
    sectionOf d probeFields expected path s n = .ok (c.apply s) := by
  obtain ⟨seen, result, hpasses, hresult⟩ :=
    exists_sectionOf (readable_probe h) h.keys.distinct hn s
  have hsame : result = c.apply s := by
    obtain ⟨compiler, header, includeDirs, defines, flags⟩ := result
    simp only [ProbeSettings.Changes.apply, ProbeSettings.mk.injEq]
    exact ⟨hpasses.get_eq governs_compiler h.compiler, hpasses.get_eq governs_header h.header,
      hpasses.get_eq governs_includeDirs h.includeDirs, hpasses.get_eq governs_defines h.defines,
      hpasses.get_eq governs_flags h.flags⟩
  rw [hresult, hsame]

/-! Lint settings -/

theorem governs_namePrefix :
    Governs lintFields d "prefix" LintSettings.namePrefix fun n t => d.text? n = some t where
  sets _ _ h := ⟨_, _, rfl, reads_textField h, fun _ => rfl⟩
  keeps := by simp [lintFields]

theorem governs_implementationMarker :
    Governs lintFields d "implementation_marker" LintSettings.implementationMarker
      d.IsOptionalText where
  sets _ _ h := ⟨_, _, rfl, reads_optionalField h, fun _ => rfl⟩
  keeps := by simp [lintFields]

theorem governs_ignored :
    Governs lintFields d "ignore" LintSettings.ignored d.IsTexts where
  sets _ _ h := ⟨_, _, rfl, reads_textsField h, fun _ => rfl⟩
  keeps := by simp [lintFields]

theorem readable_lint {c : LintSettings.Changes} (h : c.Written d es) :
    ∀ e ∈ es, Readable lintFields d e := by
  intro e he
  obtain ⟨name, hname, hkey⟩ := h.keys.known e he
  simp only [lintNames, List.mem_cons, List.not_mem_nil, or_false] at hname
  rcases hname with rfl | rfl | rfl
  · exact governs_namePrefix.readable h.namePrefix h.keys.distinct he hkey
  · exact governs_implementationMarker.readable h.implementationMarker h.keys.distinct he hkey
  · exact governs_ignored.readable h.ignored h.keys.distinct he hkey

/-- A mapping of lint settings is read as the changes that it names. -/
theorem sectionOf_lint {c : LintSettings.Changes} {m : Mark} (hn : d.resolve n = .mapping es m)
    (h : c.Written d es) (s : LintSettings) (expected path : String) :
    sectionOf d lintFields expected path s n = .ok (c.apply s) := by
  obtain ⟨seen, result, hpasses, hresult⟩ :=
    exists_sectionOf (readable_lint h) h.keys.distinct hn s
  have hsame : result = c.apply s := by
    obtain ⟨namePrefix, implementationMarker, ignored⟩ := result
    simp only [LintSettings.Changes.apply, LintSettings.mk.injEq]
    exact ⟨hpasses.get_eq governs_namePrefix h.namePrefix,
      hpasses.get_eq governs_implementationMarker h.implementationMarker,
      hpasses.get_eq governs_ignored h.ignored⟩
  rw [hresult, hsame]

/-! The whole configuration -/

def IsProbe (d : Document) (n : Node) (s : ProbeSettings) : Prop :=
  ∃ c : ProbeSettings.Changes, d.IsMapping n (fun inner => c.Written d inner) ∧
    c.apply .default = s

def IsLint (d : Document) (n : Node) (s : LintSettings) : Prop :=
  ∃ c : LintSettings.Changes, d.IsMapping n (fun inner => c.Written d inner) ∧
    c.apply .default = s

theorem governs_package :
    Governs fields d "package" Config.package fun n t => d.text? n = some t where
  sets _ _ h := ⟨_, _, rfl, reads_textField h, fun _ => rfl⟩
  keeps := by simp [fields]

theorem governs_output :
    Governs fields d "output" Config.output fun n (p : Path) => d.text? n = some p.text where
  sets _ _ h := ⟨_, _, rfl, reads_textField h, fun _ => rfl⟩
  keeps := by simp [fields]

theorem governs_probe : Governs fields d "probe" Config.probe (IsProbe d) where
  sets := by
    rintro v _ ⟨c, ⟨inner, m, hn, hc⟩, rfl⟩
    exact ⟨_, _, rfl, reads_sectionField fun path => sectionOf_probe hn hc .default _ path,
      fun _ => rfl⟩
  keeps := by simp [fields]

theorem governs_lint : Governs fields d "lint" Config.lint (IsLint d) where
  sets := by
    rintro v _ ⟨c, ⟨inner, m, hn, hc⟩, rfl⟩
    exact ⟨_, _, rfl, reads_sectionField fun path => sectionOf_lint hn hc .default _ path,
      fun _ => rfl⟩
  keeps := by simp [fields]

section Root

variable {c : Changes} (h : c.Written d es)

include h

theorem Changes.Written.rel_probe :
    Option.Rel (IsProbe d) (d.value? "probe" es) (c.probe.map fun p => p.apply .default) :=
  rel_map _ h.probe fun _ p hp => ⟨p, hp, rfl⟩

theorem Changes.Written.rel_lint :
    Option.Rel (IsLint d) (d.value? "lint" es) (c.lint.map fun l => l.apply .default) :=
  rel_map _ h.lint fun _ l hl => ⟨l, hl, rfl⟩

theorem readable_fields : ∀ e ∈ es, Readable fields d e := by
  intro e he
  obtain ⟨name, hname, hkey⟩ := h.keys.known e he
  simp only [names, List.mem_cons, List.not_mem_nil, or_false] at hname
  rcases hname with rfl | rfl | rfl | rfl
  · exact governs_package.readable h.package h.keys.distinct he hkey
  · exact governs_output.readable h.output h.keys.distinct he hkey
  · exact governs_probe.readable h.rel_probe h.keys.distinct he hkey
  · exact governs_lint.readable h.rel_lint h.keys.distinct he hkey

/-- A whole configuration is read as the changes that it names, those of its sections included. -/
theorem sectionOf_fields {m : Mark} (hn : d.resolve n = .mapping es m) (expected path : String) :
    sectionOf d fields expected path default n = .ok (c.apply default) := by
  obtain ⟨seen, result, hpasses, hresult⟩ :=
    exists_sectionOf (readable_fields h) h.keys.distinct hn default
  have hsame : result = c.apply default := by
    obtain ⟨package, output, probe, lint⟩ := result
    simp only [Changes.apply, Config.mk.injEq]
    exact ⟨hpasses.get_eq governs_package h.package, hpasses.get_eq governs_output h.output,
      hpasses.get_eq governs_probe h.rel_probe, hpasses.get_eq governs_lint h.rel_lint⟩
  rw [hresult, hsame]

/-! Keys that are no names -/

/-- One more key, that no field has, is refused by its name, at the top or in a section. -/
theorem exists_refused_of_stray {key : String} {known : List String} {es' : List (Node × Node)}
    (hstray : Stray d key known es es') (spot : Spot) :
    ∃ f, Refused key known f ∧ entries d fields spot [] default es' = .error f := by
  cases hstray with
  | outside hentry =>
    exact exists_refused hentry (readable_fields h) h.keys.distinct spot default
  | @inside before after inner inner' k v v' m m' name known hsection hk hv hv' hentry =>
    have hmem : (k, v) ∈ before ++ (k, v) :: after :=
      List.mem_append_right _ List.mem_cons_self
    have hbefore : ∀ e ∈ before, Readable fields d e := fun e he =>
      readable_fields h e (List.mem_append_left _ he)
    simp only [List.mem_cons, Prod.mk.injEq, List.not_mem_nil, or_false] at hsection
    rcases hsection with ⟨rfl, rfl⟩ | ⟨rfl, rfl⟩
    · obtain ⟨p, hp⟩ := Document.exists_of_value? h.probe h.keys.distinct hmem hk hv
      exact exists_refused_value hbefore h.keys.distinct hk rfl
        (exists_refused_section hentry (readable_probe hp) hp.keys.distinct hv') spot default
    · obtain ⟨l, hl⟩ := Document.exists_of_value? h.lint h.keys.distinct hmem hk hv
      exact exists_refused_value hbefore h.keys.distinct hk rfl
        (exists_refused_section hentry (readable_lint hl) hl.keys.distinct hv') spot default

end Root

/-- A text that is a mapping with distinct keys, each of them the name of a field, gives the
default configuration with exactly the named fields replaced, and so do the keys inside a
section for the fields of that section. With one more key that no field has, in the mapping
or in one of its sections, the text is refused, with a fault of the file it was read from. -/
theorem ofYaml_overrides {yaml : String} {origin : Path} {es : List (Node × Node)} {m : Mark}
    (hread : (Document.read yaml).Whole es m) :
    (∀ c : Changes, c.Written (Document.read yaml) es → origin.directory? = none →
      ofYaml yaml origin = .ok (c.apply default)) ∧
    ∀ (c : Changes) (key : String) (known : List String) (plain : List (Node × Node)),
      c.Written (Document.read yaml) plain → Stray (Document.read yaml) key known plain es →
        ∃ path at_, ofYaml yaml origin = .error (.badConfig origin
          (.malformed (.mismatch (.unknownField key known) path at_))) := by
  constructor
  · intro c hc horigin
    have hdecode : ofDocument (Document.read yaml) = .ok (c.apply default) :=
      Document.decode_eq_ok hread (sectionOf_fields hc rfl _ _)
    exact ofYaml_eq_ok_iff.mpr ⟨_, hdecode, anchorAt_of_no_directory horigin _⟩
  · intro c key known plain hc hstray
    obtain ⟨_, ⟨path, at_, rfl⟩, hf⟩ := exists_refused_of_stray hc hstray ⟨"", m⟩
    have hdecode : ofDocument (Document.read yaml) = .error _ := Document.decode_eq_error hread hf
    exact ⟨path, at_, by rw [ofYaml, hdecode]⟩

/-! A section that is given in part, without and with a key that no setting has -/

def partialText : String :=
  "probe:\n  flags: [-m32]\n  compiler: ~\n"

def misspelledText : String :=
  "probe:\n  flags: [-m32]\n  flag: 1\n  compiler: ~\n"

def partialChanges : Changes :=
  { probe := some { compiler := some none, flags := some ["-m32"] } }

def plainScalar (text : String) (m : Mark) : Node :=
  .scalar ⟨text, .plain, none⟩ m

def flagsEntry : Node × Node :=
  (plainScalar "flags" ⟨9, 1, 2⟩, .sequence [plainScalar "-m32" ⟨17, 1, 10⟩] ⟨16, 1, 9⟩)

def compilerEntry (k v : Mark) : Node × Node :=
  (plainScalar "compiler" k, plainScalar "~" v)

def partialProbe : List (Node × Node) :=
  [flagsEntry, compilerEntry ⟨25, 2, 2⟩ ⟨35, 2, 12⟩]

/-- The same settings behind the marks of the other text. -/
def spelledProbe : List (Node × Node) :=
  [flagsEntry, compilerEntry ⟨35, 3, 2⟩ ⟨45, 3, 12⟩]

def misspelledProbe : List (Node × Node) :=
  [flagsEntry, (plainScalar "flag" ⟨25, 2, 2⟩, plainScalar "1" ⟨31, 2, 8⟩),
    compilerEntry ⟨35, 3, 2⟩ ⟨45, 3, 12⟩]

def onlyProbe (inner : List (Node × Node)) : List (Node × Node) :=
  [(plainScalar "probe" .start, .mapping inner ⟨9, 1, 2⟩)]

theorem written_partialChanges (d : Document) (k v : Mark) :
    partialChanges.Written d (onlyProbe [flagsEntry, compilerEntry k v]) where
  keys := ⟨by simp [onlyProbe, plainScalar, Document.text?, Document.resolve, names],
    by simp [onlyProbe]⟩
  package := .none
  output := .none
  probe := .some ⟨_, _, rfl,
    { keys := ⟨by simp [flagsEntry, compilerEntry, plainScalar, Document.text?, Document.resolve,
          probeNames],
        by simp [flagsEntry, compilerEntry, plainScalar, Document.text?, Document.resolve]⟩
      compiler := .some (.null rfl ⟨rfl, Or.inl ⟨rfl, by decide⟩⟩)
      header := .none
      includeDirs := .none
      defines := .none
      flags := .some ⟨_, _, rfl, .cons rfl .nil⟩ }⟩
  lint := .none

theorem stray_misspelledProbe (d : Document) :
    Stray d "flag" probeNames (onlyProbe spelledProbe) (onlyProbe misspelledProbe) :=
  @Stray.inside d "flag" [] [] spelledProbe misspelledProbe _ _ _ _ _ _ _ List.mem_cons_self
    rfl rfl rfl (@Document.Stray.entry d _ _ [flagsEntry] _ _ _ rfl (by decide))

theorem read_partialText : Document.read partialText =
    .ofRoot (.mapping (onlyProbe partialProbe) .start) := by
  -- The scanner recurses on the length of its text, which plain unfolding leaves closed.
  with_unfolding_all rfl

theorem read_misspelledText : Document.read misspelledText =
    .ofRoot (.mapping (onlyProbe misspelledProbe) .start) := by
  with_unfolding_all rfl

theorem ofYaml_partialText :
    ((Document.read partialText).Whole (onlyProbe partialProbe) .start ∧
      partialChanges.Written (Document.read partialText) (onlyProbe partialProbe) ∧
      ofYaml partialText ⟨"nk-abi.yaml"⟩ = .ok (partialChanges.apply default)) ∧
    (Document.read misspelledText).Whole (onlyProbe misspelledProbe) .start ∧
      partialChanges.Written (Document.read misspelledText) (onlyProbe spelledProbe) ∧
      Stray (Document.read misspelledText) "flag" probeNames (onlyProbe spelledProbe)
        (onlyProbe misspelledProbe) ∧
      ∃ path at_, ofYaml misspelledText ⟨"nk-abi.yaml"⟩ = .error (.badConfig ⟨"nk-abi.yaml"⟩
        (.malformed (.mismatch (.unknownField "flag" probeNames) path at_))) := by
  have hpartial : (Document.read partialText).Whole (onlyProbe partialProbe) .start :=
    read_partialText ▸ ⟨rfl, rfl, rfl⟩
  have hmisspelled : (Document.read misspelledText).Whole (onlyProbe misspelledProbe) .start :=
    read_misspelledText ▸ ⟨rfl, rfl, rfl⟩
  have hwritten := written_partialChanges (Document.read partialText) ⟨25, 2, 2⟩ ⟨35, 2, 12⟩
  have hspelled := written_partialChanges (Document.read misspelledText) ⟨35, 3, 2⟩ ⟨45, 3, 12⟩
  have hstray := stray_misspelledProbe (Document.read misspelledText)
  exact ⟨⟨hpartial, hwritten, (ofYaml_overrides hpartial).1 _ hwritten (by decide)⟩,
    hmisspelled, hspelled, hstray, (ofYaml_overrides hmisspelled).2 _ _ _ _ hspelled hstray⟩

end Config

end LayoutGuard
