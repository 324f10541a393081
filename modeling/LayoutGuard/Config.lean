import LayoutGuard.Fault
import LayoutGuard.Header.Scan
import LayoutGuard.Probe.Settings
import LayoutGuard.Yaml.Document
import LayoutGuard.Yaml.Schema

/-!
The configuration of a project: its package, where the assertion file goes, how
the probe is built and which header types are linted. A configuration file names
the fields it changes and all others keep their defaults; relative paths in it
are seen from the directory that holds the file.
-/

namespace LayoutGuard

structure Config where
  package : String
  output : Path
  probe : ProbeSettings
  lint : LintSettings
deriving DecidableEq, Repr

namespace Config

def default : Config :=
  ⟨"nuklear", ⟨"assertions.odin"⟩, .default, .default⟩

open Yaml.Schema

def probeFields : List (Yaml.Field ProbeSettings) :=
  [optionalField "compiler" fun c s => { s with compiler := c },
   textField "header" "a string" fun h s => { s with header := h },
   textsField "include_dirs" "path string" fun ds s => { s with includeDirs := ds.map Path.mk },
   textsField "defines" "a string" fun ds s => { s with defines := ds },
   textsField "flags" "a string" fun fs s => { s with flags := fs }]

def lintFields : List (Yaml.Field LintSettings) :=
  [textField "prefix" "a string" fun p s => { s with namePrefix := p },
   optionalField "implementation_marker" fun m s => { s with implementationMarker := m },
   textsField "ignore" "a string" fun is s => { s with ignored := is }]

def fields : List (Yaml.Field Config) :=
  [textField "package" "a string" fun p c => { c with package := p },
   textField "output" "path string" fun p c => { c with output := ⟨p⟩ },
   sectionField "probe" "struct ProbeConfig" probeFields .default fun s c => { c with probe := s },
   sectionField "lint" "struct LintConfig" lintFields .default fun s c => { c with lint := s }]

/-- Reads a configuration whose paths are as written. -/
def ofDocument (d : Yaml.Document) : Except Yaml.Failure Config :=
  d.decode (sectionOf d fields "struct GeneratorConfig" "" default)

/-- The configuration with its relative paths seen from a directory. -/
def rebase (base : Path) (c : Config) : Config :=
  { c with
    output := base.join c.output
    probe := { c.probe with includeDirs := c.probe.includeDirs.map base.join } }

/-- The configuration as seen from where the path of its file is valid. -/
def anchorAt (origin : Path) (c : Config) : Config :=
  origin.directory?.elim c fun base => c.rebase base

def ofYaml (yaml : String) (origin : Path) : Except Fault Config :=
  match ofDocument (Yaml.Document.read yaml) with
  | .ok c => .ok (c.anchorAt origin)
  | .error f => .error (.badConfig origin (.malformed f))

def defaultFile : Path :=
  ⟨"nk-abi.yaml"⟩

end Config

end LayoutGuard
