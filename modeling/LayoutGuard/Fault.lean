import LayoutGuard.CType
import LayoutGuard.Files.Path
import LayoutGuard.Files.IoFault
import LayoutGuard.Json.Failure
import LayoutGuard.Yaml.Failure

/-!
Everything that can go wrong between a registry and its assertion file, with
the wording of each case.
-/

namespace LayoutGuard

/-- Why a configuration file is refused. -/
inductive ConfigProblem
  | unreadable (fault : IoFault)
  | malformed (failure : Yaml.Failure)
deriving DecidableEq, Repr

/-- Why a type has no usable size. -/
inductive SizeProblem
  /-- The size is not known at all. -/
  | undefined
  /-- A complete composite type of C is never empty. -/
  | empty
  /-- The compiler rejected the `sizeof` of the type. -/
  | rejected (diagnostic : String)
deriving DecidableEq, Repr

/-- Why the output of a probe program is no size listing. -/
inductive ListingProblem
  | strangeLine (line : String)
  | badIndex (line : String)
  | badSize (line : String)
  | outsideRegistry (index : Nat)
  | missingEntry (binding : String)
  /-- The output is not UTF-8; `length` is none when its end is cut off. -/
  | notText (offset : Nat) (length : Option Nat)
deriving DecidableEq, Repr

inductive Fault
  | notRegistered (spelling : String)
  | unresolvable (spelling odinName : String) (problem : SizeProblem)
  | writeFailed (path : Path) (reason : IoFault)
  | invalidPackage (name : String)
  | compilerUnavailable (compiler : String) (reason : IoFault)
  | compileFailed (compiler diagnostics : String)
  | probeFailed (status diagnostics : String)
  | badListing (problem : ListingProblem)
  | badConfig (path : Path) (problem : ConfigProblem)
  | badReport (failure : Json.Failure)
  | io (reason : IoFault)
deriving DecidableEq, Repr

def ConfigProblem.text : ConfigProblem → String
  | unreadable fault => fault.text
  | malformed failure => failure.text

def SizeProblem.text : SizeProblem → String
  | undefined => "no complete definition visible to the native compiler"
  | empty => "zero-sized; the type is opaque or only forward-declared"
  | rejected diagnostic => diagnostic

def ListingProblem.text : ListingProblem → String
  | strangeLine line => "unexpected line `" ++ line ++ "`"
  | badIndex line => "bad entry index in `" ++ line ++ "`"
  | badSize line => "bad size in `" ++ line ++ "`"
  | outsideRegistry index =>
    "entry " ++ Text.Decimal.text index ++ " is outside the registry"
  | missingEntry binding => "no size printed for " ++ binding
  | notText offset (some length) =>
    "output is not UTF-8: invalid utf-8 sequence of " ++ Text.Decimal.text length ++
      " bytes from index " ++ Text.Decimal.text offset
  | notText offset none =>
    "output is not UTF-8: incomplete utf-8 byte sequence from index " ++
      Text.Decimal.text offset

def Fault.text : Fault → String
  | notRegistered spelling => "native type `" ++ spelling ++ "` is not registered"
  | unresolvable spelling odinName problem =>
    "unresolvable type `" ++ spelling ++ "` (bound to `" ++ odinName ++ "`): " ++ problem.text
  | writeFailed path reason => "failed to write " ++ path.text ++ ": " ++ reason.text
  | invalidPackage name => "invalid package name `" ++ name ++ "`"
  | compilerUnavailable compiler reason =>
    "C compiler `" ++ compiler ++ "` is unavailable: " ++ reason.text
  | compileFailed compiler diagnostics =>
    "layout probe failed to compile with `" ++ compiler ++ "`:\n" ++ diagnostics
  | probeFailed status diagnostics =>
    "layout probe exited with " ++ status ++ ":\n" ++ diagnostics
  | badListing problem => "malformed layout probe output: " ++ problem.text
  | badConfig path problem =>
    "invalid configuration " ++ path.text ++ ": " ++ problem.text
  | badReport failure => "invalid layout report: " ++ failure.text
  | io reason => "I/O error: " ++ reason.text

end LayoutGuard
