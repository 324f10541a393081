import Mathlib.Data.List.Basic
import LayoutGuard.Proofs.Command.Document
import LayoutGuard.Proofs.SizeReport.Replay

/-!
Replaying a recorded report equals measuring. A report that was measured and written to
a file gives, when a later generation reads it back, the document of a generation that
measures directly, whatever compiler and settings that later run has.
-/

namespace LayoutGuard

theorem Registry.isName_nuklear :
    ∀ b ∈ Registry.nuklear.bindings, Text.isName b.ctype.name.toList = true := by
  decide +kernel

theorem SizeReport.normalized_nuklear : SizeReport.Normalized Registry.nuklear :=
  SizeReport.normalized_of_isName Registry.isName_nuklear

/-- Reading back the text of a measured report gives the documents of the measured
table. -/
theorem SizeReport.render_of_measured {r : Registry} {t : SizeTable} {package : String}
    {compiler : Option String} {report : SizeReport} (hnormal : SizeReport.Normalized r)
    (h : SizeReport.measure r t.source package compiler = .ok report) (name : PackageName) :
    AssertionFile.render name r report.table.source = AssertionFile.render name r t.source :=
  AssertionFile.render_congr name fun _ hb => SizeReport.sizeOf?_table_measured hnormal h hb

namespace Command

open FileSystem Replacement

variable {w w' : Surroundings} {fs : FileSystem} {c c' : Config} {R : Path}

/-- What a successful measurement writes to a file. -/
structure Measured (w : Surroundings) (fs : FileSystem) (c : Config) (R : Path) (t : SizeTable)
    (report : SizeReport) (loc : Location) : Prop where
  sizes : (measureSizes w c).result = .ok t
  record : SizeReport.measure Registry.nuklear t.source c.package
    (some (c.probe.compilerCommand w.compiler)) = .ok report
  place : Replaceable fs R loc
  updated : Updated fs loc (.file (finalMode fs R) (fileBytes (report.toJson ++ "\n")))
    (measure w fs c (some R)).files

/-- Measuring comes down to replacing the destination by the report. -/
theorem measure_of_record {json : String} (h : (recordSizes w c).result = .ok json) :
    (measure w fs c (some R)).files = (fs.replaceFile R (fileBytes (json ++ "\n"))).1 ∧
      ((measure w fs c (some R)).exitCode = 0 ↔
        (fs.replaceFile R (fileBytes (json ++ "\n"))).2 = .ok ()) := by
  unfold measure writeAtomically
  dsimp only
  rw [h]
  dsimp only
  cases (fs.replaceFile R (fileBytes (json ++ "\n"))).2 with
  | error e => simp [Except.mapError, failed]
  | ok u => simp [Except.mapError]

theorem exists_record_of_measure (h : (measure w fs c (some R)).exitCode = 0) :
    ∃ json, (recordSizes w c).result = .ok json := by
  cases hrecord : (recordSizes w c).result with
  | error e =>
    unfold measure at h
    dsimp only at h
    rw [hrecord] at h
    exact absurd h Nat.one_ne_zero
  | ok json => exact ⟨json, rfl⟩

/-- A run has a report when it has sizes and every entry has a usable one. -/
theorem recordSizes_eq_ok_iff {json : String} :
    (recordSizes w c).result = .ok json ↔
      ∃ t report, (measureSizes w c).result = .ok t ∧
        SizeReport.measure Registry.nuklear t.source c.package
          (some (c.probe.compilerCommand w.compiler)) = .ok report ∧ report.toJson = json := by
  unfold recordSizes
  dsimp only
  simp only [bind_eq_ok_iff', mapError_eq_ok_iff, map_eq_ok_iff, exists_and_left]

/-- A measurement that succeeds had sizes, a report of them and a place for it. -/
theorem measured_of_exitCode (h : (measure w fs c (some R)).exitCode = 0) :
    ∃ t report loc, Measured w fs c R t report loc := by
  obtain ⟨json, hrecord⟩ := exists_record_of_measure h
  obtain ⟨hfiles, hwrite⟩ := measure_of_record (R := R) hrecord
  obtain ⟨t, report, ht, hreport, rfl⟩ := recordSizes_eq_ok_iff.mp hrecord
  obtain ⟨loc, hplace⟩ := replaceable_of_ok (hwrite.mp h)
  refine ⟨t, report, loc, ht, hreport, hplace, ?_⟩
  rw [hfiles]
  exact updated_replaceFile hplace _

/-- Tables that render alike under every valid name render alike under any. -/
theorem renderFile_congr {t u : SizeTable}
    (h : ∀ name : PackageName, AssertionFile.render name Registry.nuklear t.source =
      AssertionFile.render name Registry.nuklear u.source) (package : String) :
    renderFile package t = renderFile package u := by
  simp only [renderFile, h]

namespace Measured

variable {t : SizeTable} {report : SizeReport} {loc : Location}
  (h : Measured w fs c R t report loc)

include h

/-- The report is read back from where the measurement wrote it. -/
theorem load : SizeReport.load (measure w fs c (some R)).files R = .ok report := by
  have hcontents := h.updated.contentsOf_self h.place.destination.free h.place.destination.locate
  refine SizeReport.load_eq_ok_iff.mpr ⟨_, readText_eq_ok_iff.mpr hcontents, ?_⟩
  apply SizeReport.ofJson_toJson_append
  exact List.all_eq_true.mp (by decide)

/-- The document that is replayed is the one that would have been generated. -/
theorem document_eq (package : Option String) :
    document w' (measure w fs c (some R)).files c' package (some R) =
      document w fs c (some (package.getD c'.package)) none := by
  have hreplayed : (loadSizes w' (measure w fs c (some R)).files c' (some R)).result =
      .ok report.table := by
    simp only [loadSizes, attempting, h.load]
    rfl
  have hdirect : (loadSizes w fs c none).result = .ok t := h.sizes
  rw [document, document, hreplayed, hdirect]
  exact renderFile_congr
    (SizeReport.render_of_measured SizeReport.normalized_nuklear h.record) _

/-- Replaying succeeds when generating directly does, and writes the same text. -/
theorem generate_agrees {output : Option Path} {package : Option String} :
    let replay := generate w' (measure w fs c (some R)).files c' output package (some R)
    let direct := generate w fs c (some (output.getD c'.output)) (some (package.getD c'.package))
      none
    (replay.exitCode = 0 ↔ direct.exitCode = 0) ∧
      (replay.exitCode = 0 → ∃ text,
        replay.files.contentsOf (output.getD c'.output) = .ok (fileBytes text) ∧
        direct.files.contentsOf (output.getD c'.output) = .ok (fileBytes text)) := by
  intro replay direct
  have hexit : replay.exitCode = 0 ↔ direct.exitCode = 0 := by
    rw [exitCode_generate_iff, exitCode_generate_iff, h.document_eq]
    simp only [replaceable_iff h.updated h.place.destination.free, Option.getD_some]
  refine ⟨hexit, ?_⟩
  intro hreplay
  obtain ⟨loc, text, hr⟩ := generated_of_exitCode hreplay
  obtain ⟨loc', text', hd⟩ := generated_of_exitCode (hexit.mp hreplay)
  have hsame : text = text' :=
    Except.ok.inj (hr.document.symm.trans ((h.document_eq package).trans hd.document))
  refine ⟨text, hr.contentsOf, ?_⟩
  rw [hsame]
  exact hd.contentsOf

end Measured

/-- Sizes that were recorded give the documents of the sizes that were measured, from a
table to its report and back, and from one run to another. -/
theorem replay_agrees_with_measurement :
    (∀ (r : Registry) (t : SizeTable) (package : String) (compiler : Option String)
        (report : SizeReport), SizeReport.Normalized r →
      SizeReport.measure r t.source package compiler = .ok report →
      ∃ back, SizeReport.ofJson report.toJson = .ok back ∧
        ∀ name : PackageName, AssertionFile.render name r back.table.source =
          AssertionFile.render name r t.source) ∧
    SizeReport.Normalized Registry.nuklear ∧
    ∀ (w w' : Surroundings) (fs : FileSystem) (c c' : Config) (config config' : Option Path)
        (R : Path) (output : Option Path) (package : Option String),
      Config.discover fs config w.configFile = .ok c →
      Config.discover fs config' w'.configFile = .ok c' →
      ¬fs.SamePlace R (Config.wantedFile config' w'.configFile) →
      let measured := runInvocation w fs ⟨config, .measure (some R)⟩
      let replay := runInvocation w' measured.files ⟨config', .generate output package (some R)⟩
      let direct := runInvocation w fs ⟨config, .generate (some (output.getD c'.output))
        (some (package.getD c'.package)) none⟩
      measured.exitCode = 0 →
      (replay.exitCode = 0 ↔ direct.exitCode = 0) ∧
        (replay.exitCode = 0 → ∃ text,
          replay.files.contentsOf (output.getD c'.output) = .ok (fileBytes text) ∧
          direct.files.contentsOf (output.getD c'.output) = .ok (fileBytes text)) := by
  refine ⟨?_, SizeReport.normalized_nuklear, ?_⟩
  · intro r t package compiler report hnormal hreport
    have hback := SizeReport.ofJson_toJson_append report "" (by simp)
    rw [String.append_empty] at hback
    exact ⟨report, hback, SizeReport.render_of_measured hnormal hreport⟩
  · intro w w' fs c c' config config' R output package hconfig hconfig' hapart measured replay
      direct hexit
    have hmeasured : measured = measure w fs c (some R) := runInvocation_eq hconfig _
    have hdirect : direct = generate w fs c (some (output.getD c'.output))
        (some (package.getD c'.package)) none := runInvocation_eq hconfig _
    rw [hmeasured] at hexit
    obtain ⟨t, report, loc, h⟩ := measured_of_exitCode hexit
    have hagain : Config.discover measured.files config' w'.configFile = .ok c' := by
      rw [hmeasured]
      exact (discover_iff h.updated h.place.destination.free
        (locate_ne_of_apart h.place.destination.locate hapart)).mpr hconfig'
    have hreplay : replay = generate w' (measure w fs c (some R)).files c' output package
        (some R) := by
      rw [← hmeasured]
      exact runInvocation_eq hagain _
    rw [hreplay, hdirect]
    exact h.generate_agrees

/-! A report that is replayed where no compiler can be started -/

def compilerlessWorld : Surroundings :=
  { uniformWorld with tools := fun _ _ _ => .error (.system .notFound) }

theorem replaceable_report : Replaceable emptyTree ⟨"report.json"⟩ ["report.json"] where
  staging := ⟨[], by decide⟩
  destination := {
    no_nul := by decide
    named := ⟨[], "report.json".toList,
      ⟨by decide, ⟨[], by decide, by decide⟩, by decide, by decide, by decide⟩, by decide⟩
    free := noDirectory_of_free (by decide) }

theorem measure_uniformWorld :
    (measure uniformWorld emptyTree .default (some ⟨"report.json"⟩)).exitCode = 0 := by
  obtain ⟨t, ht, hsized⟩ := measureSizes_uniformWorld
  have hreport := (SizeReport.measure_eq_ok_iff t.source Config.default.package
    (some (Config.default.probe.compilerCommand none)) _).mpr ⟨hsized, rfl⟩
  have hrecord : (recordSizes uniformWorld .default).result = .ok _ :=
    recordSizes_eq_ok_iff.mpr ⟨t, _, ht, hreport, rfl⟩
  rw [(measure_of_record hrecord).2, replaceFile_of_replaceable replaceable_report]

/-- A report that was written with a compiler serves where none can be started. -/
theorem replay_without_compiler :
    (runInvocation compilerlessWorld
      (runInvocation uniformWorld emptyTree ⟨none, .measure (some ⟨"report.json"⟩)⟩).files
      ⟨none, .generate none none (some ⟨"report.json"⟩)⟩).exitCode = 0 := by
  have hmeasured : (runInvocation uniformWorld emptyTree
      ⟨none, .measure (some ⟨"report.json"⟩)⟩).exitCode = 0 := by
    rw [runInvocation_eq discover_emptyTree]
    exact measure_uniformWorld
  have hdirect : (runInvocation uniformWorld emptyTree
      ⟨none, .generate (some ⟨"assertions.odin"⟩) (some "nuklear") none⟩).exitCode = 0 := by
    rw [runInvocation_eq discover_emptyTree]
    refine exitCode_generate_iff.mpr ⟨?_, _, replaceable_emptyTree⟩
    exact document_uniformWorld emptyTree
  have hapart : ¬emptyTree.SamePlace ⟨"report.json"⟩ Config.defaultFile :=
    apart_of_locate replaceable_report.destination.locate (by decide)
  exact (replay_agrees_with_measurement.2.2 uniformWorld compilerlessWorld emptyTree .default
    .default none none ⟨"report.json"⟩ none none discover_emptyTree discover_emptyTree hapart
    hmeasured).1.mpr hdirect

end Command

end LayoutGuard
