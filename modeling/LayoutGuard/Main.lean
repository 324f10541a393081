import LayoutGuard.Command.Run

/-!
The command line program. It takes the files below the working directory as a
value, runs the command on it and writes back what has changed. It starts no
other programs, so sizes have to come from a report.
-/

namespace LayoutGuard.Program

partial def readEntry (dir : Location) (e : IO.FS.DirEntry) : IO (List (Location × Entry)) := do
  let loc := e.fileName :: dir
  if ← e.path.isDir then
    let below ← (← e.path.readDir).toList.mapM (readEntry loc)
    return (loc, .directory 0o755) :: below.flatten
  else
    let contents ← IO.FS.readBinFile e.path
    return [(loc, .file 0o644 contents.data.toList)]

def readFiles : IO FileSystem := do
  let top ← IO.currentDir
  let below ← (← top.readDir).toList.mapM (readEntry ["workspace"])
  return ⟨(["workspace"], .directory 0o755) :: below.flatten, ["workspace"], 0o022⟩

def writeBack (path : String) (contents : List UInt8) : IO Unit := do
  let staging := path ++ ".tmp"
  IO.FS.writeBinFile staging ⟨contents.toArray⟩
  IO.FS.rename staging path

/-- Writes the files that a run has changed. -/
def writeChanges (before after : FileSystem) : IO Unit := do
  for (loc, e) in after.entries do
    match e, FileSystem.relative? after.current loc with
    | .file _ contents, some path =>
      if before.entry? loc ≠ some e then writeBack path contents
    | _, _ => pure ()

def run (arguments : List String) : IO UInt32 := do
  let before ← readFiles
  let surroundings : Command.Surroundings := {
    configFile := ← IO.getEnv "NK_ABI_CONFIG"
    compiler := ← IO.getEnv "CC"
    tools := fun _ _ _ => .error (.system .notFound)
    scratch := ⟨"/tmp"⟩ }
  let outcome := Command.run surroundings before arguments
  writeChanges before outcome.files
  IO.print outcome.output
  IO.eprint outcome.diagnostics
  return UInt32.ofNat outcome.exitCode

end LayoutGuard.Program

def main (arguments : List String) : IO UInt32 :=
  LayoutGuard.Program.run arguments
