import LayoutGuard.Command.Arguments
import LayoutGuard.Drift
import LayoutGuard.Emission
import LayoutGuard.Lint
import LayoutGuard.Probe.Measurement
import LayoutGuard.Registry.Nuklear
import LayoutGuard.Storage

/-!
Running a command: generate writes the assertion file, measure records the sizes
as a report, check compares the file with what would be generated, and lint
examines the registry. A run leaves a file system, an exit status and two texts.
Both texts can always be written, and the system makes no trouble for the files:
what stops a replacement is that the tree has no place for the file.
-/

namespace LayoutGuard

/-- What a fault goes back to, where its own text already tells that. -/
def Fault.cause? : Fault → Option String
  | .writeFailed _ reason => some reason.text
  | .compilerUnavailable _ reason => some reason.text
  | .badReport failure => some failure.text
  | .io reason => some reason.text
  | _ => none

namespace Command

/-- A chain of messages, from what was attempted to the innermost cause. -/
abbrev Complaint :=
  List String

def complain (f : Fault) : Complaint :=
  f.text :: f.cause?.toList

def attempting {α : Type} (context : String) (result : Except Complaint α) : Except Complaint α :=
  result.mapError (context :: ·)

/-- The world around a run. -/
structure Surroundings where
  /-- The configuration file that the environment names. -/
  configFile : Option String
  /-- The compiler that the environment names. -/
  compiler : Option String
  tools : Toolchain
  /-- The directory that the probe is built in. -/
  scratch : Path

structure Outcome where
  files : FileSystem
  exitCode : Nat
  output : String
  diagnostics : String
  /-- The arguments of the compiler, if it was started. -/
  arguments : Option (List String)

/-- A result and the arguments of the compiler, if it was started for it. -/
structure Traced (α : Type) where
  arguments : Option (List String)
  result : Except Complaint α

def measureSizes (w : Surroundings) (c : Config) : Traced SizeTable :=
  let m := Probe.measure c.probe w.compiler w.tools w.scratch Registry.nuklear
  ⟨m.arguments, attempting "Failed to measure native layouts" (m.result.mapError complain)⟩

def loadSizes (w : Surroundings) (fs : FileSystem) (c : Config) (layouts : Option Path) :
    Traced SizeTable :=
  match layouts with
  | none => measureSizes w c
  | some p =>
    ⟨none, attempting ("Failed to load layout report " ++ p.text)
      (((SizeReport.load fs p).map SizeReport.table).mapError complain)⟩

/-- A run that ends with a complaint and leaves all files alone. -/
def failed (fs : FileSystem) (arguments : Option (List String)) (c : Complaint) : Outcome :=
  ⟨fs, 1, "", "[ERROR] " ++ String.intercalate ": " c ++ "\n", arguments⟩

def renderFile (package : String) (sizes : SizeTable) : Except Complaint String :=
  ((PackageName.ofString package).bind fun name =>
    AssertionFile.render name Registry.nuklear sizes.source).mapError complain

def generate (w : Surroundings) (fs : FileSystem) (c : Config) (output : Option Path)
    (package : Option String) (layouts : Option Path) : Outcome :=
  match PackageName.ofString (package.getD c.package) with
  | .error f => failed fs none (complain f)
  | .ok name =>
    let sizes := loadSizes w fs c layouts
    match sizes.result with
    | .error e => failed fs sizes.arguments e
    | .ok t =>
      match Emission.emit fs name Registry.nuklear t.source (output.getD c.output) with
      | (after, .error f) => failed after sizes.arguments (complain f)
      | (after, .ok e) => ⟨after, 0, e.summary, "", sizes.arguments⟩

def recordSizes (w : Surroundings) (c : Config) : Traced String :=
  let sizes := measureSizes w c
  ⟨sizes.arguments, sizes.result.bind fun t =>
    ((SizeReport.measure Registry.nuklear t.source c.package
      (some (c.probe.compilerCommand w.compiler))).map SizeReport.toJson).mapError complain⟩

def measure (w : Surroundings) (fs : FileSystem) (c : Config) (output : Option Path) : Outcome :=
  let record := recordSizes w c
  match record.result, output with
  | .error e, _ => failed fs record.arguments e
  | .ok json, none => ⟨fs, 0, json ++ "\n", "", record.arguments⟩
  | .ok json, some p =>
    match fs.writeAtomically p (fileBytes (json ++ "\n")) with
    | (after, .error f) =>
      failed after record.arguments (("Failed to write layout report " ++ p.text) :: complain f)
    | (after, .ok _) => ⟨after, 0, "", "", record.arguments⟩

def compareFile (w : Surroundings) (fs : FileSystem) (c : Config) (file : Option Path)
    (package : Option String) (layouts : Option Path) : Traced Drift :=
  let p := file.getD c.output
  match fs.readText p with
  | .error e => ⟨none, .error ["Failed to read " ++ p.text, e.text]⟩
  | .ok committed =>
    let sizes := loadSizes w fs c layouts
    ⟨sizes.arguments, sizes.result.bind fun t =>
      (renderFile (package.getD c.package) t).map fun regenerated =>
        Drift.compare committed regenerated⟩

def check (w : Surroundings) (fs : FileSystem) (c : Config) (file : Option Path)
    (package : Option String) (layouts : Option Path) : Outcome :=
  let drift := compareFile w fs c file package layouts
  match drift.result with
  | .error e => failed fs drift.arguments e
  | .ok d =>
    if d.isClean then ⟨fs, 0, "[OK] Assertion file is up to date\n", "", drift.arguments⟩
    else
      ⟨fs, 1, "[ERROR] Assertion file is out of date:\n" ++ d.text ++
        "Run `nk-abi-gen generate` and commit the result.\n", "", drift.arguments⟩

/-- The configured header in the first directory that has it. -/
def locateHeader (fs : FileSystem) (c : Config) : Option Path :=
  (c.probe.includeDirs.map fun d => d.join ⟨c.probe.header⟩).find? fs.isFile

def lintText (report : Lint.Report) : String :=
  String.join (report.findings.map fun f => "  " ++ f.text ++ "\n") ++
    (match report.headerTypes with
      | none => ""
      | some n => "  Scanned " ++ Text.Decimal.text n ++ " header types\n") ++
    (if report.hasErrors then "[ERROR] " else "[OK] ") ++
    Text.Decimal.text (report.count .error) ++ " errors, " ++
    Text.Decimal.text (report.count .warning) ++ " warnings\n"

/-- Reports the findings; without a header only the registry is examined. -/
def lintHeader (fs : FileSystem) (c : Config) (header : Option String) : Outcome :=
  let report := Lint.run Registry.nuklear header c.lint
  ⟨fs, if report.hasErrors then 1 else 0, lintText report, "", none⟩

def lint (fs : FileSystem) (c : Config) (header : Option Path) : Outcome :=
  match header.or (locateHeader fs c) with
  | none => lintHeader fs c none
  | some p =>
    match fs.readText p with
    | .error e => failed fs none ["Failed to read header " ++ p.text, e.text]
    | .ok text => lintHeader fs c (some text)

def perform (w : Surroundings) (fs : FileSystem) (c : Config) : Task → Outcome
  | .generate output package layouts => generate w fs c output package layouts
  | .measure output => measure w fs c output
  | .check file package layouts => check w fs c file package layouts
  | .lint header => lint fs c header

def runInvocation (w : Surroundings) (fs : FileSystem) (i : Invocation) : Outcome :=
  match Config.discover fs i.config w.configFile with
  | .error f => failed fs none (complain f)
  | .ok c => perform w fs c i.task

def versionText : String :=
  "nk-abi-gen 0.3.0\n"

/-- Runs a command line; a wrong one ends with the exit code 2. -/
def run (w : Surroundings) (fs : FileSystem) (arguments : List String) : Outcome :=
  match readArguments arguments with
  | none => ⟨fs, 2, "", "", none⟩
  | some .help => ⟨fs, 0, "", "", none⟩
  | some .version => ⟨fs, 0, versionText, "", none⟩
  | some (.perform i) => runInvocation w fs i

end Command

end LayoutGuard
