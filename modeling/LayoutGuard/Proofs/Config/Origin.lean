import Mathlib.Data.List.Forall2
import LayoutGuard.Config
import LayoutGuard.Proofs.Files.Path

/-!
Configurations read from different places. The text alone decides whether a configuration
is valid and what its fields are, and the place of its file only moves its relative paths.
Read under a long path from outside, or under the bare name of the file from the directory
that holds it, a configuration designates the same files.
-/

namespace LayoutGuard.Config

variable {yaml : String}

/-- The text decides alone whether it is a configuration; the origin comes in afterwards. -/
theorem ofYaml_eq_ok_iff {origin : Path} {c : Config} :
    ofYaml yaml origin = .ok c ↔
      ∃ written, ofDocument (Yaml.Document.read yaml) = .ok written ∧
        written.anchorAt origin = c := by
  rw [ofYaml]
  cases ofDocument (Yaml.Document.read yaml) with
  | ok written => simp
  | error f => simp

/-- Nothing is moved when the file is named without a directory. -/
theorem anchorAt_of_no_directory {origin : Path} (h : origin.directory? = none) (c : Config) :
    c.anchorAt origin = c := by
  rw [anchorAt, h, Option.elim_none]

/-- Two configurations designate the same files, the one from `w` and the other from `v`,
and agree in everything else. -/
structure SeenAlike (w v : Path) (c d : Config) : Prop where
  output : w.join c.output = v.join d.output
  includeDirs : c.probe.includeDirs.map w.join = d.probe.includeDirs.map v.join
  absolute_output : d.output.isAbsolute = true → c.output = d.output
  absolute_dirs : List.Forall₂ (fun dir dir' => dir'.isAbsolute = true → dir = dir')
    c.probe.includeDirs d.probe.includeDirs
  others : { c with
    output := d.output, probe := { c.probe with includeDirs := d.probe.includeDirs } } = d

section Origin

variable {origin parent : Path}

theorem seenAlike_rebase (hparent : parent.isEmpty = false) (w : Path) (c : Config) :
    SeenAlike w (w.join parent) (c.rebase parent) c where
  output := Path.join_join w hparent
  includeDirs := by
    rw [rebase, List.map_map]
    exact List.map_congr_left fun _ _ => Path.join_join w hparent
  absolute_output := Path.join_of_absolute parent
  absolute_dirs := by
    rw [rebase, List.forall₂_map_left_iff, List.forall₂_same]
    exact fun dir _ habsolute => Path.join_of_absolute parent habsolute
  others := rfl

theorem seenAlike_of_isEmpty (hparent : parent.isEmpty = true) (w : Path) (c : Config) :
    SeenAlike w (w.join parent) c c where
  output := (Path.join_join_of_isEmpty w hparent).symm
  includeDirs := List.map_congr_left fun _ _ => (Path.join_join_of_isEmpty w hparent).symm
  absolute_output := fun _ => rfl
  absolute_dirs := List.forall₂_same.mpr fun _ _ _ => rfl
  others := rfl

/-- A configuration that was moved to its directory designates, from outside, what it designates
as written from inside. -/
theorem seenAlike_anchorAt (hparent : origin.parent? = some parent) (w : Path) (c : Config) :
    SeenAlike w (w.join parent) (c.anchorAt origin) c := by
  rw [anchorAt, Path.directory?_of_parent? hparent]
  cases hempty : parent.isEmpty with
  | true => exact seenAlike_of_isEmpty hempty w c
  | false => exact seenAlike_rebase hempty w c

/-- A valid configuration text is valid wherever its file lies. What it designates from a
directory `w`, when its file is `origin`, is what it designates from the parent of `origin`
when its file has the bare name: output and include directories are the same paths,
absolute ones as they are written, and all other fields are equal. -/
theorem ofYaml_seen_from {name : Path} (hparent : origin.parent? = some parent)
    (hname : origin.name? = some name) (hvalid : ∃ place c, ofYaml yaml place = .ok c)
    (w : Path) :
    ∃ c d, ofYaml yaml origin = .ok c ∧ ofYaml yaml name = .ok d ∧
      SeenAlike w (w.join parent) c d := by
  obtain ⟨place, c, hplace⟩ := hvalid
  obtain ⟨written, hwritten, -⟩ := ofYaml_eq_ok_iff.mp hplace
  have hbare : written.anchorAt name = written :=
    anchorAt_of_no_directory (Path.directory?_of_name? hname) written
  exact ⟨written.anchorAt origin, written, ofYaml_eq_ok_iff.mpr ⟨written, hwritten, rfl⟩,
    ofYaml_eq_ok_iff.mpr ⟨written, hwritten, hbare⟩, seenAlike_anchorAt hparent w written⟩

end Origin

/-! A file in a subdirectory, with paths of both kinds -/

def vendoredText : String :=
  "package: nk\nprobe:\n  include_dirs: [vendor/nuklear, /opt/include]\n"

def vendored : Config :=
  { default with
    package := "nk"
    probe := { ProbeSettings.default with
      includeDirs := [⟨"vendor/nuklear"⟩, ⟨"/opt/include"⟩] } }

/-- The same configuration as it is seen from the directory above. -/
def vendoredBelow : Config :=
  { vendored with
    output := ⟨"bindings/assertions.odin"⟩
    probe := { vendored.probe with
      includeDirs := [⟨"bindings/vendor/nuklear"⟩, ⟨"/opt/include"⟩] } }

theorem ofYaml_vendoredText :
    (⟨"bindings/./nk-abi.yaml"⟩ : Path).parent? = some ⟨"bindings"⟩ ∧
      (⟨"bindings/./nk-abi.yaml"⟩ : Path).name? = some ⟨"nk-abi.yaml"⟩ ∧
      ofYaml vendoredText ⟨"bindings/./nk-abi.yaml"⟩ = .ok vendoredBelow ∧
      ofYaml vendoredText ⟨"nk-abi.yaml"⟩ = .ok vendored ∧
      SeenAlike ⟨"/work"⟩ ⟨"/work/bindings"⟩ vendoredBelow vendored := by
  have hparent : (⟨"bindings/./nk-abi.yaml"⟩ : Path).parent? = some ⟨"bindings"⟩ := by decide
  have hname : (⟨"bindings/./nk-abi.yaml"⟩ : Path).name? = some ⟨"nk-abi.yaml"⟩ := by decide
  have hbelow : ofYaml vendoredText ⟨"bindings/./nk-abi.yaml"⟩ = .ok vendoredBelow := by
    decide +kernel
  have hbare : ofYaml vendoredText ⟨"nk-abi.yaml"⟩ = .ok vendored := by decide +kernel
  obtain ⟨c, d, hc, hd, hseen⟩ :=
    ofYaml_seen_from hparent hname ⟨_, _, hbare⟩ ⟨"/work"⟩
  obtain rfl : vendoredBelow = c := Except.ok.inj (hbelow.symm.trans hc)
  obtain rfl : vendored = d := Except.ok.inj (hbare.symm.trans hd)
  exact ⟨hparent, hname, hbelow, hbare, hseen⟩

end LayoutGuard.Config
