import Mathlib.Data.List.Basic
import LayoutGuard.Proofs.Command.Document

/-!
Checking and generating agree byte for byte. After a successful generation the check of
the same destination succeeds, provided that the destination is none of the files that
both runs read. A check that succeeds has found exactly the bytes that a generation
with the same arguments writes.
-/

namespace LayoutGuard.Command

open FileSystem Replacement

/-- Generating and then checking the destination, and checking any file. -/
theorem check_agrees_with_generate (w : Surroundings) (fs : FileSystem) (c : Config)
    (config output layouts : Option Path) (package : Option String)
    (hconfig : Config.discover fs config w.configFile = .ok c) :
    let p := output.getD c.output
    let generated := runInvocation w fs ⟨config, .generate output package layouts⟩
    (¬fs.SamePlace p (Config.wantedFile config w.configFile) →
      (∀ q, layouts = some q → ¬fs.SamePlace p q) →
      generated.exitCode = 0 →
      (∃ d, (compareFile w generated.files c (some p) package layouts).result = .ok d ∧
          d.isClean = true) ∧
        (runInvocation w generated.files ⟨config, .check (some p) package layouts⟩).exitCode = 0) ∧
    ((runInvocation w fs ⟨config, .check (some p) package layouts⟩).exitCode = 0 →
      ∃ text, document w fs c package layouts = .ok text ∧
        fs.contentsOf p = .ok (fileBytes text) ∧
        ∀ o, (runInvocation w fs ⟨config, .generate o package layouts⟩).exitCode = 0 →
          (runInvocation w fs ⟨config, .generate o package layouts⟩).files.contentsOf
            (o.getD c.output) = .ok (fileBytes text)) := by
  intro p generated
  constructor
  · intro hnotConfig hnotLayouts hexit
    have hgenerated : generated = generate w fs c output package layouts :=
      runInvocation_eq hconfig _
    rw [hgenerated] at hexit ⊢
    obtain ⟨loc, text, h⟩ := generated_of_exitCode hexit
    have hdir := h.place.destination.free
    have hagain : Config.discover (generate w fs c output package layouts).files config
        w.configFile = .ok c :=
      (discover_iff h.updated hdir (locate_ne_of_apart h.locate hnotConfig)).mpr hconfig
    have hdocument : document w (generate w fs c output package layouts).files c package layouts =
        .ok text :=
      (document_iff h.updated hdir fun q hq =>
        locate_ne_of_apart h.locate (hnotLayouts q hq)).mpr h.document
    have hclean : ∃ d, (compareFile w (generate w fs c output package layouts).files c (some p)
        package layouts).result = .ok d ∧ d.isClean = true :=
      compareFile_of_contents hdocument h.contentsOf
    refine ⟨hclean, ?_⟩
    rw [runInvocation_eq hagain]
    exact exitCode_check_iff.mpr hclean
  · intro hexit
    rw [runInvocation_eq hconfig] at hexit
    obtain ⟨text, htext, hfile⟩ := contentsOf_of_check hexit
    refine ⟨text, htext, hfile, ?_⟩
    intro o ho
    rw [runInvocation_eq hconfig] at ho ⊢
    obtain ⟨loc, written, h⟩ := generated_of_exitCode ho
    have hsame : written = text := Except.ok.inj (h.document.symm.trans htext)
    rw [← hsame]
    exact h.contentsOf

/-! A first generation in an empty directory -/

/-- In a tree without files, a check behind a generation finds the file up to date. -/
theorem check_after_first_generation :
    (runInvocation uniformWorld
      (runInvocation uniformWorld emptyTree ⟨none, .generate none none none⟩).files
      ⟨none, .check (some ⟨"assertions.odin"⟩) none none⟩).exitCode = 0 := by
  have hexit : (runInvocation uniformWorld emptyTree
      ⟨none, .generate none none none⟩).exitCode = 0 := by
    rw [runInvocation_eq discover_emptyTree]
    exact exitCode_generate_iff.mpr ⟨document_uniformWorld emptyTree, _, replaceable_emptyTree⟩
  have hapart : ¬emptyTree.SamePlace ⟨"assertions.odin"⟩ Config.defaultFile :=
    apart_of_locate replaceable_emptyTree.destination.locate (by decide)
  exact ((check_agrees_with_generate uniformWorld emptyTree .default none none none none
    discover_emptyTree).1 hapart (by simp) hexit).2

end LayoutGuard.Command
