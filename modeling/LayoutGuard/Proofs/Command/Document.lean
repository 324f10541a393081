import Mathlib.Data.List.Basic
import LayoutGuard.Command.Run
import LayoutGuard.Proofs.Drift.Clean
import LayoutGuard.Proofs.Files.Replacement
import LayoutGuard.Proofs.Probe.Listing

/-!
The document of a run, and how generate and check use it. Both find the same text from
the configuration, the sizes and the package. One replaces a file by it and the other
accepts no file but one that holds it. A change of a file that a run does not read
leaves its document alone.
-/

namespace LayoutGuard

theorem Registry.isIdentifier_nuklear :
    ∀ b ∈ Registry.nuklear.bindings, Odin.isIdentifier b.odinName = true := by
  decide +kernel

theorem Config.load_eq_ok_iff {fs : FileSystem} {p : Path} {c : Config} :
    Config.load fs p = .ok c ↔ ∃ yaml, fs.readText p = .ok yaml ∧ Config.ofYaml yaml p = .ok c := by
  rw [Config.load]
  cases fs.readText p <;> simp

def Config.wantedFile (named : Option Path) (environment : Option String) : Path :=
  (named.or (environment.map Path.mk)).getD Config.defaultFile

theorem SizeReport.load_eq_ok_iff {fs : FileSystem} {p : Path} {report : SizeReport} :
    SizeReport.load fs p = .ok report ↔
      ∃ json, fs.readText p = .ok json ∧ SizeReport.ofJson json = .ok report := by
  rw [SizeReport.load]
  cases fs.readText p <;> simp

namespace Command

open FileSystem Replacement

variable {w : Surroundings} {fs after : FileSystem} {c : Config} {package : Option String}
  {config layouts : Option Path}

def document (w : Surroundings) (fs : FileSystem) (c : Config) (package : Option String)
    (layouts : Option Path) : Except Complaint String :=
  (loadSizes w fs c layouts).result.bind (renderFile (package.getD c.package))

/-- A run has a document when it has sizes, its package is valid and the registry can be rendered.
-/
theorem document_eq_ok_iff {text : String} :
    document w fs c package layouts = .ok text ↔
      ∃ t name, (loadSizes w fs c layouts).result = .ok t ∧ package.getD c.package = name.text ∧
        AssertionFile.render name Registry.nuklear t.source = .ok text := by
  simp only [document, renderFile, bind_eq_ok_iff', mapError_eq_ok_iff,
    PackageName.ofString_eq_ok_iff]
  constructor
  · rintro ⟨t, ht, name, hname, htext⟩
    exact ⟨t, name, ht, hname, htext⟩
  · rintro ⟨t, name, ht, hname, htext⟩
    exact ⟨t, ht, name, hname, htext⟩

/-! Generating and checking -/

theorem runInvocation_eq (hconfig : Config.discover fs config w.configFile = .ok c) (task : Task) :
    runInvocation w fs ⟨config, task⟩ = perform w fs c task := by
  rw [runInvocation, hconfig]

theorem apart_of_locate {p q : Path} {loc : Location} (hp : fs.locate p = .ok loc)
    (hq : fs.locate q ≠ .ok loc) : ¬fs.SamePlace p q := by
  rintro ⟨place, hp', hq'⟩
  rw [hp] at hp'
  cases hp'
  exact hq hq'

theorem locate_ne_of_apart {p q : Path} {loc : Location} (hp : fs.locate p = .ok loc)
    (hapart : ¬fs.SamePlace p q) : fs.locate q ≠ .ok loc :=
  fun hq => hapart ⟨loc, hp, hq⟩

section Generate

variable {output : Option Path} {text : String}

/-- Generating comes down to replacing the destination by the document. -/
theorem generate_of_document (h : document w fs c package layouts = .ok text) :
    (generate w fs c output package layouts).files =
        (fs.replaceFile (output.getD c.output) (fileBytes text)).1 ∧
      ((generate w fs c output package layouts).exitCode = 0 ↔
        (fs.replaceFile (output.getD c.output) (fileBytes text)).2 = .ok ()) := by
  obtain ⟨t, name, ht, hname, hrender⟩ := document_eq_ok_iff.mp h
  simp only [generate, PackageName.ofString_eq_ok_iff.mpr hname, ht, Emission.emit, hrender,
    writeAtomically]
  cases (fs.replaceFile (output.getD c.output) (fileBytes text)).2 <;>
    simp [Except.map, Except.mapError, failed]

theorem exists_document_of_generate
    (h : (generate w fs c output package layouts).exitCode = 0) :
    ∃ text, document w fs c package layouts = .ok text := by
  rw [generate] at h
  split at h
  · cases h
  · rename_i name hname
    dsimp only at h
    split at h
    · cases h
    · rename_i t ht
      cases hrender : AssertionFile.render name Registry.nuklear t.source with
      | error f => simp [Emission.emit, hrender, failed] at h
      | ok text =>
        exact ⟨text, document_eq_ok_iff.mpr
          ⟨t, name, ht, PackageName.ofString_eq_ok_iff.mp hname, hrender⟩⟩

/-- Generating succeeds when there is a document and a place for it. -/
theorem exitCode_generate_iff :
    (generate w fs c output package layouts).exitCode = 0 ↔
      (∃ text, document w fs c package layouts = .ok text) ∧
        ∃ loc, Replaceable fs (output.getD c.output) loc := by
  constructor
  · intro h
    obtain ⟨text, htext⟩ := exists_document_of_generate h
    exact ⟨⟨text, htext⟩, replaceable_of_ok ((generate_of_document htext).2.mp h)⟩
  · rintro ⟨⟨text, htext⟩, loc, hloc⟩
    rw [(generate_of_document htext).2, replaceFile_of_replaceable hloc]

/-- The file that generating leaves behind holds the document. -/
theorem updated_generate (htext : document w fs c package layouts = .ok text) {loc : Location}
    (hloc : Replaceable fs (output.getD c.output) loc) :
    Updated fs loc (.file (finalMode fs (output.getD c.output)) (fileBytes text))
      (generate w fs c output package layouts).files := by
  rw [(generate_of_document htext).1]
  exact updated_replaceFile hloc _

/-- What a successful generation leaves behind. -/
structure Generated (w : Surroundings) (fs : FileSystem) (c : Config)
    (output layouts : Option Path) (package : Option String) (loc : Location) (text : String) :
    Prop where
  document : document w fs c package layouts = .ok text
  place : Replaceable fs (output.getD c.output) loc

/-- A generation that succeeds had a document and a place for it. -/
theorem generated_of_exitCode (h : (generate w fs c output package layouts).exitCode = 0) :
    ∃ loc text, Generated w fs c output layouts package loc text := by
  obtain ⟨⟨text, htext⟩, loc, hloc⟩ := exitCode_generate_iff.mp h
  exact ⟨loc, text, htext, hloc⟩

namespace Generated

variable {loc : Location} (h : Generated w fs c output layouts package loc text)

include h

theorem locate : fs.locate (output.getD c.output) = .ok loc :=
  h.place.destination.locate

theorem updated : Updated fs loc (.file (finalMode fs (output.getD c.output)) (fileBytes text))
    (generate w fs c output package layouts).files :=
  updated_generate h.document h.place

theorem contentsOf : (generate w fs c output package layouts).files.contentsOf
    (output.getD c.output) = .ok (fileBytes text) :=
  h.updated.contentsOf_self h.place.destination.free h.locate

end Generated

end Generate

section Check

variable {file : Option Path}

/-- A check compares the committed file with the document of the same run. -/
theorem compareFile_eq_ok_iff {d : Drift} :
    (compareFile w fs c file package layouts).result = .ok d ↔
      ∃ committed text, fs.readText (file.getD c.output) = .ok committed ∧
        document w fs c package layouts = .ok text ∧ Drift.compare committed text = d := by
  rw [compareFile]
  cases hread : fs.readText (file.getD c.output) with
  | error e => simp
  | ok committed =>
    constructor
    · intro h
      obtain ⟨t, ht, h⟩ := bind_eq_ok_iff'.mp h
      obtain ⟨text, htext, hd⟩ := map_eq_ok_iff.mp h
      exact ⟨committed, text, rfl, bind_eq_ok_iff'.mpr ⟨t, ht, htext⟩, hd⟩
    · rintro ⟨_, text, hcommitted, hdocument, hd⟩
      cases hcommitted
      obtain ⟨t, ht, htext⟩ := bind_eq_ok_iff'.mp hdocument
      exact bind_eq_ok_iff'.mpr ⟨t, ht, map_eq_ok_iff.mpr ⟨text, htext, hd⟩⟩

/-- A check succeeds exactly when it can compare and finds no drift. -/
theorem exitCode_check_iff :
    (check w fs c file package layouts).exitCode = 0 ↔
      ∃ d, (compareFile w fs c file package layouts).result = .ok d ∧ d.isClean = true := by
  rw [check]
  cases (compareFile w fs c file package layouts).result with
  | error e => simp [failed]
  | ok d => cases hd : d.isClean <;> simp [hd]

/-- A document is found clean against no file but itself. -/
theorem isClean_compare_document_iff {text : String}
    (htext : document w fs c package layouts = .ok text) (committed : String) :
    (Drift.compare committed text).isClean = true ↔ committed = text := by
  obtain ⟨t, name, -, -, hrender⟩ := document_eq_ok_iff.mp htext
  exact Drift.isClean_document_iff Registry.isIdentifier_nuklear hrender committed

/-- Checking succeeds when the file holds the document. -/
theorem contentsOf_of_check (h : (check w fs c file package layouts).exitCode = 0) :
    ∃ text, document w fs c package layouts = .ok text ∧
      fs.contentsOf (file.getD c.output) = .ok (fileBytes text) := by
  obtain ⟨d, hd, hclean⟩ := exitCode_check_iff.mp h
  obtain ⟨committed, text, hread, htext, rfl⟩ := compareFile_eq_ok_iff.mp hd
  cases (isClean_compare_document_iff htext committed).mp hclean
  exact ⟨committed, htext, readText_eq_ok_iff.mp hread⟩

/-- A file that holds the document of a run is up to date for that run. -/
theorem compareFile_of_contents {text : String}
    (htext : document w fs c package layouts = .ok text)
    (hfile : fs.contentsOf (file.getD c.output) = .ok (fileBytes text)) :
    ∃ d, (compareFile w fs c file package layouts).result = .ok d ∧ d.isClean = true :=
  ⟨_, compareFile_eq_ok_iff.mpr ⟨text, text, readText_eq_ok_iff.mpr hfile, htext, rfl⟩,
    (isClean_compare_document_iff htext text).mpr rfl⟩

end Check

/-! Files that a run does not read -/

section Elsewhere

variable {loc : Location} {mode : Nat} {contents : List UInt8}
  (h : Updated fs loc (.file mode contents) after) (hdir : fs.NoDirectory loc)

include h hdir

/-- A file that changed elsewhere does not change the configuration that is found. -/
theorem discover_iff {named : Option Path} {environment : Option String}
    (hconfig : fs.locate (Config.wantedFile named environment) ≠ .ok loc) :
    Config.discover after named environment = .ok c ↔
      Config.discover fs named environment = .ok c := by
  have hload : Config.load after (Config.wantedFile named environment) = .ok c ↔
      Config.load fs (Config.wantedFile named environment) = .ok c := by
    simp only [Config.load_eq_ok_iff, h.readText_iff hdir hconfig]
  have hfile := h.isFile_eq hdir hconfig
  cases named with
  | some p => exact hload
  | none =>
    cases environment with
    | some text => exact hload
    | none =>
      change after.isFile Config.defaultFile = fs.isFile Config.defaultFile at hfile
      rw [Config.discover, Config.discover, hfile]
      cases fs.isFile Config.defaultFile with
      | false => rfl
      | true => exact hload

/-- Sizes are the same behind a change to a file that they are not read from. -/
theorem loadSizes_iff (hlayouts : ∀ q, layouts = some q → fs.locate q ≠ .ok loc) {t : SizeTable} :
    (loadSizes w after c layouts).result = .ok t ↔ (loadSizes w fs c layouts).result = .ok t := by
  cases layouts with
  | none => rfl
  | some q =>
    simp only [loadSizes, attempting, mapError_eq_ok_iff, map_eq_ok_iff,
      SizeReport.load_eq_ok_iff, h.readText_iff hdir (hlayouts q rfl)]

/-- The document is the same behind a change to a file that the run does not read. -/
theorem document_iff (hlayouts : ∀ q, layouts = some q → fs.locate q ≠ .ok loc) {text : String} :
    document w after c package layouts = .ok text ↔
      document w fs c package layouts = .ok text := by
  simp only [document, bind_eq_ok_iff', loadSizes_iff h hdir hlayouts]

end Elsewhere

/-! An empty directory where every type has eight bytes -/

def uniformWorld : Surroundings where
  configFile := none
  compiler := none
  tools := Probe.printing (Probe.printedSizes (List.replicate Registry.nuklear.size 8))
  scratch := ⟨"/tmp"⟩

theorem measureSizes_uniformWorld :
    ∃ t, (measureSizes uniformWorld .default).result = .ok t ∧
      AssertionFile.Sized Registry.nuklear t.source := by
  have hsizes : ∀ n ∈ List.replicate Registry.nuklear.size (8 : UInt64), n ≠ 0 := by simp
  obtain ⟨t, ht, hsized⟩ := Probe.measure_printing Config.default.probe none ⟨"/tmp"⟩
    (r := Registry.nuklear) (by decide) List.length_replicate (by decide) hsizes
  exact ⟨t, mapError_eq_ok_iff.mpr (mapError_eq_ok_iff.mpr ht), hsized⟩

theorem document_uniformWorld (fs : FileSystem) :
    ∃ text, document uniformWorld fs .default none none = .ok text := by
  obtain ⟨t, ht, hsized⟩ := measureSizes_uniformWorld
  have hrender := (AssertionFile.render_eq_ok_iff ⟨"nuklear", by decide⟩ _ t.source _).mpr
    ⟨hsized, rfl⟩
  exact ⟨_, document_eq_ok_iff.mpr ⟨t, _, ht, rfl, hrender⟩⟩

def emptyTree : FileSystem :=
  ⟨[], [], 0o022⟩

theorem discover_emptyTree : Config.discover emptyTree none none = .ok .default := by
  rw [Config.discover, if_neg (by decide)]

theorem replaceable_emptyTree : Replaceable emptyTree ⟨"assertions.odin"⟩ ["assertions.odin"] where
  staging := ⟨[], by decide⟩
  destination := {
    no_nul := by decide
    named := ⟨[], "assertions.odin".toList,
      ⟨by decide, ⟨[], by decide, by decide⟩, by decide, by decide, by decide⟩, by decide⟩
    free := noDirectory_of_free (by decide) }

end Command

end LayoutGuard
