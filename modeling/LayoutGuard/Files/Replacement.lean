import LayoutGuard.Files.FileSystem
import LayoutGuard.Text.Decimal

/-!
Replacing a file as a whole. The new contents are written to a staging file in
the same directory, which is then moved over the old file in one step. Any step
may fail; then the staging file is removed and all is as before.
-/

namespace LayoutGuard

namespace Replacement

inductive Step
  /-- Create the staging file. -/
  | stage
  | fill
  | flush
  /-- Give the staging file the mode of the file that it replaces. -/
  | permit
  | swap
deriving DecidableEq, Repr

/-- A fault that the system raises at a step. -/
structure Trouble where
  step : Step
  fault : IoFault
  /-- How much of the contents is written before filling fails. -/
  written : Nat
deriving DecidableEq, Repr

/-- The states that a replacement goes through, and how it ends. -/
structure Course where
  states : List FileSystem
  outcome : Except IoFault Unit

def Course.final (c : Course) (start : FileSystem) : FileSystem :=
  c.states.getLastD start

/-- The mode of a file that did not exist before, permissions withheld by the
system not counted. -/
def newFileMode : Nat :=
  0o644

/-- The mode of a staging file that will replace an existing file. -/
def privateMode : Nat :=
  0o600

def stagingName (n : Nat) : String :=
  ".nk-abi-" ++ Text.Decimal.text n ++ ".tmp"

def directoryOf (p : Path) : Path :=
  p.directory?.getD ⟨"."⟩

/-- A place in a directory where nothing is yet and where the path does not
lead. -/
def freshPlace? (fs : FileSystem) (dir : Location) (p : Path) : Option Location :=
  ((List.range (fs.entries.length + 2)).map fun n => stagingName n :: dir).find? fun loc =>
    (fs.entry? loc).isNone && (fs.locate p).toOption ≠ some loc

def troubleAt (trouble : Option Trouble) (s : Step) : Option IoFault :=
  (trouble.filter fun t => t.step = s).map Trouble.fault

def stage (fs : FileSystem) (p : Path) : Except IoFault (Location × FileSystem) := do
  let dir ← fs.locateDirectory (directoryOf p)
  match freshPlace? fs dir p with
  | none => .error (.system .alreadyExists)
  | some loc =>
    let mode := if fs.isFile p then privateMode else newFileMode
    return (loc, fs.put loc (.file (fs.newMode mode) []))

def filled (staged : FileSystem) (loc : Location) (contents : List UInt8) : FileSystem :=
  match staged.entry? loc with
  | some (.file mode _) => staged.put loc (.file mode contents)
  | _ => staged

def permitted (staged : FileSystem) (loc : Location) (mode : Option Nat) : FileSystem :=
  match mode, staged.entry? loc with
  | some mode, some (.file _ contents) => staged.put loc (.file mode contents)
  | _, _ => staged

/-- The end of a replacement that fails in `state`. -/
def abandon (state : FileSystem) (loc : Location) (e : IoFault) : Course :=
  ⟨[state, state.erase loc], .error e⟩

def Course.after (state : FileSystem) (c : Course) : Course :=
  ⟨state :: c.states, c.outcome⟩

def finish (trouble : Option Trouble) (state : FileSystem) (loc : Location) (p : Path) : Course :=
  match troubleAt trouble .swap with
  | some e => abandon state loc e
  | none =>
    match state.moveOver loc p with
    | .error e => abandon state loc e
    | .ok done => ⟨[state, done], .ok ()⟩

def settle (trouble : Option Trouble) (state : FileSystem) (loc : Location) (mode : Option Nat)
    (p : Path) : Course :=
  match troubleAt trouble .flush, mode.bind fun _ => troubleAt trouble .permit with
  | some e, _ => abandon state loc e
  | none, some e => abandon state loc e
  | none, none => (finish trouble (permitted state loc mode) loc p).after state

/-- The course of a replacement in which the system raises the given fault. -/
def course (trouble : Option Trouble) (fs : FileSystem) (p : Path) (contents : List UInt8) :
    Course :=
  match troubleAt trouble .stage with
  | some e => ⟨[fs], .error e⟩
  | none =>
    match stage fs p with
    | .error e => ⟨[fs], .error e⟩
    | .ok (loc, staged) =>
      let rest := match troubleAt trouble .fill with
        | some e =>
          (abandon (filled staged loc (contents.take ((trouble.map Trouble.written).getD 0))) loc e)
        | none => settle trouble (filled staged loc contents) loc (fs.fileMode? p) p
      (rest.after staged).after fs

end Replacement

/-- Replaces the contents of a file, or creates it, as a whole or not at all. The system makes
no trouble here, so only the tree can stand in the way. -/
def FileSystem.replaceFile (fs : FileSystem) (p : Path) (contents : List UInt8) :
    FileSystem × Except IoFault Unit :=
  let c := Replacement.course none fs p contents
  (c.final fs, c.outcome)

end LayoutGuard
