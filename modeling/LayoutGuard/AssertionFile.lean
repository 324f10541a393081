import LayoutGuard.Odin
import LayoutGuard.SizeTable

/-!
The assertion file: a package clause, an empty line and one size assertion per
registry entry, in registry order. It is rendered as a whole or not at all, and
`decode?` reads the package and the assertions back from a rendered text.
-/

namespace LayoutGuard

/-- A package name that Odin accepts. -/
structure PackageName where
  text : String
  valid : Odin.isIdentifier text = true

def PackageName.ofString (name : String) : Except Fault PackageName :=
  if h : Odin.isIdentifier name = true then .ok ⟨name, h⟩ else .error (.invalidPackage name)

namespace AssertionFile

def assertion (source : SizeSource) (b : Binding) : Except Fault Odin.SizeAssertion :=
  (source.resolve b).map fun size => ⟨b.odinName, size⟩

def assertions (r : Registry) (source : SizeSource) : List (Except Fault Odin.SizeAssertion) :=
  r.bindings.map (assertion source)

def format (package : PackageName) (as : List Odin.SizeAssertion) : String :=
  Odin.packageClause package.text ++ "\n\n" ++
    String.join (as.map fun a => a.text ++ "\n")

/-- The text for a registry, or the fault of the first entry that has no size. -/
def render (package : PackageName) (r : Registry) (source : SizeSource) : Except Fault String :=
  (r.bindings.mapM (assertion source)).map (format package)

/-- Reads the lines behind the package clause; the last one ends in a line feed. -/
def decodeBody? : List (List Char) → Option (List Odin.SizeAssertion)
  | [] => none
  | [last] => if last.isEmpty then some [] else none
  | line :: rest => do
    let a ← Odin.SizeAssertion.ofLine? line
    let as ← decodeBody? rest
    return a :: as

def decode? (text : String) : Option (String × List Odin.SizeAssertion) :=
  match text.toList.splitOn '\n' with
  | clause :: blank :: body => do
    let package ← Text.literal? "package " clause
    guard blank.isEmpty
    let as ← decodeBody? body
    return (String.ofList package, as)
  | _ => none

end AssertionFile

end LayoutGuard
