import Mathlib.Data.List.Basic
import LayoutGuard.Proofs.Command.Replay

/-!
What a run does to the files. A run that fails leaves all of them as they were, and so
does every check, every examination of the registry and every measurement that goes to
the standard output. A generation or a recorded measurement that succeeds puts one
complete file at the place that its path leads to and changes nothing else.
-/

namespace LayoutGuard.Command

open FileSystem Replacement

variable {w : Surroundings} {fs after : FileSystem} {c : Config} {p : Path}
  {contents : List UInt8}

/-- The tree `after` is `fs` with one complete file where the path leads to. -/
structure Wrote (fs : FileSystem) (p : Path) (contents : List UInt8) (after : FileSystem) :
    Prop where
  only : ∃ loc, fs.locate p = .ok loc ∧ Updated fs loc (.file (finalMode fs p) contents) after
  complete : after.contentsOf p = .ok contents

theorem wrote_replaceFile (h : (fs.replaceFile p contents).2 = .ok ()) :
    Wrote fs p contents (fs.replaceFile p contents).1 := by
  obtain ⟨loc, hplace⟩ := replaceable_of_ok h
  have hlocate := hplace.destination.locate
  have hupdated := updated_replaceFile hplace contents
  exact ⟨⟨loc, hlocate, hupdated⟩, hupdated.contentsOf_self hplace.destination.free hlocate⟩

/-! The four tasks -/

section Tasks

variable {output file layouts : Option Path} {package : Option String}

theorem files_generate_of_no_document
    (h : ∀ text, document w fs c package layouts ≠ .ok text) :
    (generate w fs c output package layouts).files = fs := by
  rw [generate]
  split
  · rfl
  · rename_i name hname
    dsimp only
    split
    · rfl
    · rename_i t ht
      cases hrender : AssertionFile.render name Registry.nuklear t.source with
      | error f => simp [Emission.emit, hrender, failed]
      | ok text =>
        exact absurd (document_eq_ok_iff.mpr
          ⟨t, name, ht, PackageName.ofString_eq_ok_iff.mp hname, hrender⟩) (h text)

/-- A generation that fails at any step leaves all files as they were. -/
theorem files_generate_of_failure (h : (generate w fs c output package layouts).exitCode ≠ 0) :
    (generate w fs c output package layouts).files = fs := by
  by_cases hdocument : ∃ text, document w fs c package layouts = .ok text
  · obtain ⟨text, htext⟩ := hdocument
    rw [(generate_of_document htext).1]
    exact replaceFile_of_not_ok fun hok => h ((generate_of_document htext).2.mpr hok)
  · exact files_generate_of_no_document fun text htext => hdocument ⟨text, htext⟩

/-- A generation that succeeds has written its document and nothing else. -/
theorem wrote_generate (h : (generate w fs c output package layouts).exitCode = 0) :
    ∃ text, document w fs c package layouts = .ok text ∧
      Wrote fs (output.getD c.output) (fileBytes text)
        (generate w fs c output package layouts).files := by
  obtain ⟨text, htext⟩ := exists_document_of_generate h
  rw [(generate_of_document htext).1]
  exact ⟨text, htext, wrote_replaceFile ((generate_of_document htext).2.mp h)⟩

theorem files_measure_of_no_record {e : Complaint} (h : (recordSizes w c).result = .error e) :
    (measure w fs c output).files = fs := by
  unfold measure
  dsimp only
  rw [h]
  rfl

theorem files_measure_none : (measure w fs c none).files = fs := by
  cases hrecord : (recordSizes w c).result with
  | error e => exact files_measure_of_no_record hrecord
  | ok json =>
    unfold measure
    dsimp only
    rw [hrecord]

/-- A measurement that fails at any step leaves all files as they were. -/
theorem files_measure_of_failure (h : (measure w fs c output).exitCode ≠ 0) :
    (measure w fs c output).files = fs := by
  cases output with
  | none => exact files_measure_none
  | some R =>
    cases hrecord : (recordSizes w c).result with
    | error e => exact files_measure_of_no_record hrecord
    | ok json =>
      rw [(measure_of_record hrecord).1]
      exact replaceFile_of_not_ok fun hok => h ((measure_of_record hrecord).2.mpr hok)

/-- A measurement that succeeds has written the report, with a line feed behind it, and nothing
else. -/
theorem wrote_measure {R : Path} (h : (measure w fs c (some R)).exitCode = 0) :
    ∃ json, (recordSizes w c).result = .ok json ∧
      Wrote fs R (fileBytes (json ++ "\n")) (measure w fs c (some R)).files := by
  obtain ⟨json, hrecord⟩ := exists_record_of_measure h
  rw [(measure_of_record hrecord).1]
  exact ⟨json, hrecord, wrote_replaceFile ((measure_of_record hrecord).2.mp h)⟩

theorem files_check : (check w fs c file package layouts).files = fs := by
  rw [check]
  cases (compareFile w fs c file package layouts).result with
  | error e => rfl
  | ok d => cases hclean : d.isClean <;> simp [hclean]

theorem files_lint {header : Option Path} : (lint fs c header).files = fs := by
  rw [lint]
  split
  · rfl
  · split <;> rfl

end Tasks

def Task.readsOnly : Task → Bool
  | .generate .. => false
  | .measure output => output.isNone
  | .check .. => true
  | .lint _ => true

/-- Tasks that only read change no file, whether they succeed or not. -/
theorem files_perform_of_readsOnly {task : Task} (h : task.readsOnly = true) :
    (perform w fs c task).files = fs := by
  cases task with
  | generate output package layouts => cases h
  | measure output =>
    obtain rfl : output = none := Option.isNone_iff_eq_none.mp h
    exact files_measure_none
  | check file package layouts => exact files_check
  | lint header => exact files_lint

/-- Whatever the task is, its failure changes no file. -/
theorem files_perform_of_failure {task : Task} (h : (perform w fs c task).exitCode ≠ 0) :
    (perform w fs c task).files = fs := by
  cases task with
  | generate output package layouts => exact files_generate_of_failure h
  | measure output => exact files_measure_of_failure h
  | check file package layouts => exact files_check
  | lint header => exact files_lint

/-! Whole runs -/

section Runs

variable {arguments : List String} {i : Invocation}

theorem run_eq_runInvocation (h : readArguments arguments = some (.perform i)) :
    run w fs arguments = runInvocation w fs i := by
  rw [run, h]

theorem files_runInvocation_of_failure (h : (runInvocation w fs i).exitCode ≠ 0) :
    (runInvocation w fs i).files = fs := by
  cases hconfig : Config.discover fs i.config w.configFile with
  | error f =>
    rw [runInvocation, hconfig]
    rfl
  | ok c =>
    rw [runInvocation_eq hconfig] at h ⊢
    exact files_perform_of_failure h

theorem files_runInvocation_of_readsOnly (h : i.task.readsOnly = true) :
    (runInvocation w fs i).files = fs := by
  cases hconfig : Config.discover fs i.config w.configFile with
  | error f =>
    rw [runInvocation, hconfig]
    rfl
  | ok c =>
    rw [runInvocation_eq hconfig]
    exact files_perform_of_readsOnly h

theorem exists_config_of_success (h : (runInvocation w fs i).exitCode = 0) :
    ∃ c, Config.discover fs i.config w.configFile = .ok c ∧
      runInvocation w fs i = perform w fs c i.task := by
  cases hconfig : Config.discover fs i.config w.configFile with
  | error f =>
    rw [runInvocation, hconfig] at h
    exact absurd h Nat.one_ne_zero
  | ok c => exact ⟨c, rfl, runInvocation_eq hconfig i.task⟩

/-- A command line that ends in failure, at whatever step, changes no file. -/
theorem files_run_of_failure (h : (run w fs arguments).exitCode ≠ 0) :
    (run w fs arguments).files = fs := by
  rw [run] at h ⊢
  split
  · rfl
  · rfl
  · rfl
  · rename_i i hrequest
    rw [hrequest] at h
    exact files_runInvocation_of_failure h

end Runs

/-- A run changes the files all or nothing. One that fails leaves them as they were, and so
does one whose task writes no file. One that generates or records a measurement and succeeds
has put the whole document or report at its output path and changed nothing else. -/
theorem run_all_or_nothing (w : Surroundings) (fs : FileSystem) (arguments : List String) :
    ((run w fs arguments).exitCode ≠ 0 → (run w fs arguments).files = fs) ∧
    ∀ i, readArguments arguments = some (.perform i) →
      (i.task.readsOnly = true → (run w fs arguments).files = fs) ∧
      (∀ output package layouts, i.task = .generate output package layouts →
        (run w fs arguments).exitCode = 0 →
        ∃ c text, Config.discover fs i.config w.configFile = .ok c ∧
          document w fs c package layouts = .ok text ∧
          Wrote fs (output.getD c.output) (fileBytes text) (run w fs arguments).files) ∧
      (∀ R, i.task = .measure (some R) → (run w fs arguments).exitCode = 0 →
        ∃ c json, Config.discover fs i.config w.configFile = .ok c ∧
          (recordSizes w c).result = .ok json ∧
          Wrote fs R (fileBytes (json ++ "\n")) (run w fs arguments).files) := by
  refine ⟨files_run_of_failure, ?_⟩
  rintro ⟨config, task⟩ hrequest
  rw [run_eq_runInvocation hrequest]
  refine ⟨files_runInvocation_of_readsOnly, ?_, ?_⟩
  · rintro output package layouts ⟨⟩ hexit
    obtain ⟨c, hconfig, hrun⟩ := exists_config_of_success hexit
    rw [hrun] at hexit ⊢
    obtain ⟨text, htext, hwrote⟩ := wrote_generate hexit
    exact ⟨c, text, hconfig, htext, hwrote⟩
  · rintro R ⟨⟩ hexit
    obtain ⟨c, hconfig, hrun⟩ := exists_config_of_success hexit
    rw [hrun] at hexit ⊢
    obtain ⟨json, hjson, hwrote⟩ := wrote_measure hexit
    exact ⟨c, json, hconfig, hjson, hwrote⟩

/-! Where the destination is a directory, and where there is nothing yet -/

def occupiedTree : FileSystem :=
  ⟨[(["assertions.odin"], .directory 0o755)], [], 0o022⟩

theorem readArguments_generate :
    readArguments ["generate"] = some (.perform ⟨none, .generate none none none⟩) := by
  decide

theorem readArguments_measure : readArguments ["measure", "--output", "report.json"] =
    some (.perform ⟨none, .measure (some ⟨"report.json"⟩)⟩) := by
  decide

theorem exitCode_generate_occupiedTree :
    (run uniformWorld occupiedTree ["generate"]).exitCode ≠ 0 := by
  have hconfig : Config.discover occupiedTree none none = .ok .default := by
    rw [Config.discover, if_neg (by decide)]
  rw [run_eq_runInvocation readArguments_generate, runInvocation_eq hconfig]
  intro hexit
  obtain ⟨-, loc, hplace⟩ := exitCode_generate_iff.mp hexit
  have hlocate : occupiedTree.locate ⟨"assertions.odin"⟩ = .ok ["assertions.odin"] := by decide
  obtain rfl : loc = ["assertions.odin"] :=
    Except.ok.inj (hplace.destination.locate.symm.trans hlocate)
  exact hplace.destination.free 0o755 (by decide)

theorem exitCode_generate_emptyTree : (run uniformWorld emptyTree ["generate"]).exitCode = 0 := by
  rw [run_eq_runInvocation readArguments_generate, runInvocation_eq discover_emptyTree]
  exact exitCode_generate_iff.mpr ⟨document_uniformWorld emptyTree, _, replaceable_emptyTree⟩

theorem exitCode_measure_emptyTree :
    (run uniformWorld emptyTree ["measure", "--output", "report.json"]).exitCode = 0 := by
  rw [run_eq_runInvocation readArguments_measure, runInvocation_eq discover_emptyTree]
  exact measure_uniformWorld

/-- A failure where a directory is in the way, a check that changes nothing, and two runs that
write. -/
theorem runs_on_small_trees :
    ((run uniformWorld occupiedTree ["generate"]).exitCode ≠ 0 ∧
      (run uniformWorld occupiedTree ["generate"]).files = occupiedTree) ∧
    (run uniformWorld emptyTree ["check"]).files = emptyTree ∧
    ((run uniformWorld emptyTree ["generate"]).exitCode = 0 ∧
      ∃ text, Wrote emptyTree ⟨"assertions.odin"⟩ (fileBytes text)
        (run uniformWorld emptyTree ["generate"]).files) ∧
    (run uniformWorld emptyTree ["measure", "--output", "report.json"]).exitCode = 0 ∧
      ∃ json, Wrote emptyTree ⟨"report.json"⟩ (fileBytes (json ++ "\n"))
        (run uniformWorld emptyTree ["measure", "--output", "report.json"]).files := by
  have hcheck : readArguments ["check"] = some (.perform ⟨none, .check none none none⟩) := by decide
  refine ⟨⟨exitCode_generate_occupiedTree, ?_⟩, ?_, ⟨exitCode_generate_emptyTree, ?_⟩,
    exitCode_measure_emptyTree, ?_⟩
  · exact (run_all_or_nothing uniformWorld occupiedTree _).1 exitCode_generate_occupiedTree
  · exact ((run_all_or_nothing uniformWorld emptyTree _).2 _ hcheck).1 rfl
  · obtain ⟨c, text, hc, -, hwrote⟩ := ((run_all_or_nothing uniformWorld emptyTree _).2 _
      readArguments_generate).2.1 _ _ _ rfl exitCode_generate_emptyTree
    obtain rfl : Config.default = c := Except.ok.inj (discover_emptyTree.symm.trans hc)
    exact ⟨text, hwrote⟩
  · obtain ⟨-, json, -, -, hwrote⟩ := ((run_all_or_nothing uniformWorld emptyTree _).2 _
      readArguments_measure).2.2 _ rfl exitCode_measure_emptyTree
    exact ⟨json, hwrote⟩

end LayoutGuard.Command
