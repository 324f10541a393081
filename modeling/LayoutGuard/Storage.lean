import LayoutGuard.Config
import LayoutGuard.Files.FileSystem
import LayoutGuard.SizeReport

/-!
Reading configurations and size reports from files, and finding the
configuration of a run.
-/

namespace LayoutGuard

def Config.load (fs : FileSystem) (p : Path) : Except Fault Config :=
  match fs.readText p with
  | .error e => .error (.badConfig p (.unreadable e))
  | .ok yaml => Config.ofYaml yaml p

/-- The configuration of a run: from the named file, else from the file that the
environment names, else from the default file if there is one. -/
def Config.discover (fs : FileSystem) (named : Option Path) (environment : Option String) :
    Except Fault Config :=
  match named, environment with
  | some p, _ => Config.load fs p
  | none, some text => Config.load fs ⟨text⟩
  | none, none =>
    if fs.isFile Config.defaultFile then Config.load fs Config.defaultFile else .ok .default

def SizeReport.load (fs : FileSystem) (p : Path) : Except Fault SizeReport :=
  match fs.readText p with
  | .error e => .error (.io e)
  | .ok json => SizeReport.ofJson json

end LayoutGuard
