import LayoutGuard.AssertionFile
import LayoutGuard.Files.Replacement

/-!
Emitting an assertion file: it is rendered as a whole and then replaces the file
at its destination. An emission reports what was written and whether the file
held the same bytes before.
-/

namespace LayoutGuard

structure Emission where
  path : Path
  package : String
  assertions : Nat
  bytes : Nat
  /-- The destination already held the same bytes. -/
  unchanged : Bool
deriving DecidableEq, Repr

def fileBytes (s : String) : List UInt8 :=
  s.toUTF8.data.toList

/-- Replaces a file as a whole, with the path in the fault if that fails. -/
def FileSystem.writeAtomically (fs : FileSystem) (p : Path) (contents : List UInt8) :
    FileSystem × Except Fault Unit :=
  let (after, outcome) := fs.replaceFile p contents
  (after, outcome.mapError (.writeFailed p))

def FileSystem.holds (fs : FileSystem) (p : Path) (contents : List UInt8) : Bool :=
  match fs.contentsOf p with
  | .ok existing => existing = contents
  | .error _ => false

namespace Emission

def emit (fs : FileSystem) (package : PackageName) (r : Registry) (source : SizeSource)
    (p : Path) : FileSystem × Except Fault Emission :=
  match AssertionFile.render package r source with
  | .error f => (fs, .error f)
  | .ok document =>
    let contents := fileBytes document
    let unchanged := fs.holds p contents
    let (after, outcome) := fs.writeAtomically p contents
    (after, outcome.map fun _ => ⟨p, package.text, r.size, contents.length, unchanged⟩)

private def rule : String :=
  String.ofList (List.replicate 60 '=') ++ "\n"

def summary (e : Emission) : String :=
  "\n" ++ rule ++ "  Layout Assertion Report\n" ++ rule ++ "\n" ++
    "  [OK] Package:       " ++ e.package ++ "\n" ++
    "  [OK] Assertions:    " ++ Text.Decimal.text e.assertions ++ "\n" ++
    "  [OK] Written:       " ++ e.path.text ++ " (" ++ Text.Decimal.text e.bytes ++ " bytes)\n" ++
    (if e.unchanged then "  [OK] No layout drift since the previous run\n"
     else "  [!!] Output changed; review and commit the new file\n") ++
    "\n" ++ rule

end Emission

end LayoutGuard
