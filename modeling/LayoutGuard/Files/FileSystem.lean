import LayoutGuard.Files.IoFault
import LayoutGuard.Files.Path

/-!
A tree of files and directories as a value, and how paths are followed in it.
Every segment of a path but the last has to lead through an existing directory,
and a slash at the end asks for a directory. There are no links. The process may
read and write everything: files and directories have modes, and new ones get
them less the umask, but no mode ever refuses anything.
-/

namespace LayoutGuard

/-- A place in the tree: the names that lead to it, the innermost first. -/
abbrev Location :=
  List String

inductive Entry
  | directory (mode : Nat)
  | file (mode : Nat) (contents : List UInt8)
deriving DecidableEq, Repr

structure FileSystem where
  entries : List (Location × Entry)
  /-- The directory that relative paths start from. -/
  current : Location
  /-- The permissions that new files do not get. -/
  umask : Nat
deriving DecidableEq, Repr

namespace FileSystem

/-- The entry at a place. The root is always there. -/
def entry? (fs : FileSystem) : Location → Option Entry
  | [] => some (.directory 0o755)
  | loc => fs.entries.lookup loc

def put (fs : FileSystem) (loc : Location) (e : Entry) : FileSystem :=
  { fs with entries := (loc, e) :: fs.entries.filter fun p => p.1 ≠ loc }

def erase (fs : FileSystem) (loc : Location) : FileSystem :=
  { fs with entries := fs.entries.filter fun p => p.1 ≠ loc }

def newMode (fs : FileSystem) (wanted : Nat) : Nat :=
  wanted &&& (0o7777 ^^^ fs.umask)

/-! Following paths -/

def longestName : Nat :=
  255

def longestPath : Nat :=
  4095

/-- Goes into a place, which has to be a directory. -/
def enter (fs : FileSystem) (loc : Location) : Except OsError Location :=
  match fs.entry? loc with
  | none => .error .notFound
  | some (.file _ _) => .error .notADirectory
  | some (.directory _) => .ok loc

def follow (loc : Location) (segment : List Char) : Except OsError Location :=
  if segment.isEmpty || segment = ['.'] then .ok loc
  else if segment = ['.', '.'] then .ok loc.tail
  else
    let name := String.ofList segment
    if longestName < name.utf8ByteSize then .error .nameTooLong else .ok (name :: loc)

/-- Follows segments through directories; nothing need be at the last place. -/
def descend (fs : FileSystem) (loc : Location) : List (List Char) → Except OsError Location
  | [] => .ok loc
  | s :: rest => do
    let next ← follow (← fs.enter loc) s
    fs.descend next rest

def base (fs : FileSystem) (p : Path) : Location :=
  if p.isAbsolute then [] else fs.current

def checkPath (p : Path) : Except IoFault Unit :=
  if p.text.toList.contains '\x00' then .error .nulInName
  else if p.isEmpty then .error (.system .notFound)
  else if longestPath < p.text.utf8ByteSize then .error (.system .nameTooLong)
  else .ok ()

def locate (fs : FileSystem) (p : Path) : Except IoFault Location := do
  checkPath p
  (fs.descend (fs.base p) p.segments).mapError .system

def locateDirectory (fs : FileSystem) (p : Path) : Except IoFault Location := do
  (fs.enter (← fs.locate p)).mapError .system

def status (fs : FileSystem) (p : Path) : Except IoFault Entry := do
  match fs.entry? (← fs.locate p) with
  | none => .error (.system .notFound)
  | some e => .ok e

/-- Where a path would create something: in a directory under a name. Paths that
end in a dot segment or denote the root have no such name. -/
structure Target where
  directory : Location
  name : Option (List Char)
  /-- Whether slashes follow the name. -/
  slash : Bool
deriving DecidableEq, Repr

def nameOf (segment : List Char) : Option (List Char) :=
  if segment = ['.'] || segment = ['.', '.'] then none else some segment

def target (fs : FileSystem) (p : Path) : Except IoFault Target := do
  checkPath p
  let segments := p.segments.reverse
  match segments.dropWhile List.isEmpty with
  | [] => return ⟨[], none, true⟩
  | last :: parents =>
    let loc ← (fs.descend (fs.base p) parents.reverse).mapError .system
    let dir ← (fs.enter loc).mapError .system
    return ⟨dir, nameOf last, (segments.head?.map List.isEmpty).getD false⟩

/-! Reading -/

def contentsOf (fs : FileSystem) (p : Path) : Except IoFault (List UInt8) := do
  match ← fs.status p with
  | .directory _ => .error (.system .isADirectory)
  | .file _ contents => .ok contents

def readText (fs : FileSystem) (p : Path) : Except IoFault String := do
  match String.fromUTF8? ⟨(← fs.contentsOf p).toArray⟩ with
  | none => .error .notText
  | some text => .ok text

/-- The mode of a regular file, if the path leads to one. -/
def fileMode? (fs : FileSystem) (p : Path) : Option Nat :=
  match fs.status p with
  | .ok (.file mode _) => some mode
  | _ => none

def isFile (fs : FileSystem) (p : Path) : Bool :=
  (fs.fileMode? p).isSome

/-! Moving -/

/-- Moves the entry at a place over a path; a directory is never replaced. -/
def moveOver (fs : FileSystem) (source : Location) (p : Path) : Except IoFault FileSystem :=
  if p.text.toList.contains '\x00' then .error (.system .invalidArgument)
  else
    match fs.target p with
    | .error e => .error e
    | .ok ⟨_, none, _⟩ => .error (.system .busy)
    | .ok ⟨dir, some name, slash⟩ =>
      match follow dir name with
      | .error e => .error (.system e)
      | .ok loc =>
        if slash then .error (.system .notADirectory)
        else
          match fs.entry? loc, fs.entry? source with
          | some (.directory _), _ => .error (.system .isADirectory)
          | _, none => .error (.system .notFound)
          | _, some e => .ok ((fs.erase source).put loc e)

def relative? (dir loc : Location) : Option String :=
  (dir.reverse.isPrefixOf? loc.reverse).bind fun names =>
    if names.isEmpty then none else some (String.intercalate "/" names)

end FileSystem

end LayoutGuard
