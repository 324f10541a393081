import LayoutGuard.Header.Scan
import LayoutGuard.Odin
import LayoutGuard.Registry

/-!
Findings about a registry. On its own it may list a type twice, bind several
types to one Odin name or use a name that Odin refuses. Against a header it may
miss public types or hold types that the header does not define.
-/

namespace LayoutGuard

inductive Severity
  | warning
  | error
deriving DecidableEq, Repr

def Severity.text : Severity → String
  | warning => "WARNING"
  | error => "ERROR"

inductive Finding
  /-- A type listed more than once: the Odin names and the positions, counted
  from zero. -/
  | duplicateNative (spelling : String) (odinNames : List String) (positions : List Nat)
  /-- An Odin name bound to several types. -/
  | duplicateForeign (odinName : String) (spellings : List String)
  | invalidForeignName (spelling odinName : String)
  /-- A public type of the header without a registry entry. -/
  | missingFromRegistry (spelling : String)
  /-- A registered type that the header does not define. -/
  | unknownToHeader (spelling odinName : String)
deriving DecidableEq, Repr

namespace Finding

def severity : Finding → Severity
  | duplicateNative .. => .warning
  | duplicateForeign .. => .warning
  | missingFromRegistry _ => .warning
  | invalidForeignName .. => .error
  | unknownToHeader .. => .error

private def subject : Finding → String
  | duplicateNative spelling _ _ => spelling
  | duplicateForeign odinName _ => odinName
  | invalidForeignName spelling _ => spelling
  | missingFromRegistry spelling => spelling
  | unknownToHeader spelling _ => spelling

private def numberList (ns : List Nat) : String :=
  "[" ++ String.intercalate ", " (ns.map Text.Decimal.text) ++ "]"

private def remark : Finding → String
  | duplicateNative _ odinNames positions =>
    "registered " ++ Text.Decimal.text positions.length ++ " times (entries " ++
      numberList positions ++ ", as " ++ String.intercalate ", " odinNames ++ ")"
  | duplicateForeign _ spellings =>
    "bound to several native types: " ++ String.intercalate ", " spellings
  | invalidForeignName _ odinName => "`" ++ odinName ++ "` is not a valid Odin identifier"
  | missingFromRegistry _ => "defined in the header but not registered"
  | unknownToHeader _ odinName =>
    "registered as `" ++ odinName ++ "` but not defined in the header"

def text (f : Finding) : String :=
  f.severity.text ++ " [" ++ f.subject ++ "]: " ++ f.remark

end Finding

namespace Lint

def invalidNames (r : Registry) : List Finding :=
  (r.bindings.filter fun b => !Odin.isIdentifier b.odinName).map fun b =>
    .invalidForeignName b.spelling b.odinName

def occurrences (r : Registry) (spelling : String) : List (Binding × Nat) :=
  r.bindings.zipIdx.filter fun p => p.1.spelling = spelling

/-- One finding for each type that is listed at two positions or more. -/
def duplicateNatives (r : Registry) : List Finding :=
  (Text.distinctBy id r.spellings).filterMap fun spelling =>
    let found := occurrences r spelling
    if found.length > 1 then
      some (.duplicateNative spelling (found.map fun p => p.1.odinName) (found.map Prod.snd))
    else none

def boundTo (r : Registry) (odinName : String) : List String :=
  Text.distinctBy id ((r.bindings.filter fun b => b.odinName = odinName).map Binding.spelling)

/-- One finding for each Odin name that is bound to two types or more. -/
def duplicateForeigns (r : Registry) : List Finding :=
  (Text.distinctBy id (r.bindings.map Binding.odinName)).filterMap fun odinName =>
    let found := boundTo r odinName
    if found.length > 1 then some (.duplicateForeign odinName found) else none

def registry (r : Registry) : List Finding :=
  invalidNames r ++ duplicateNatives r ++ duplicateForeigns r

/-- The header types that the registry lists under none of their spellings. -/
def missing (r : Registry) (types : List HeaderType) : List Finding :=
  (types.filter fun t => !t.spellings.any r.spellings.contains).map fun t =>
    .missingFromRegistry t.spelling

/-- The registered types that are no header type, each with the first Odin name
bound to it. -/
def unknown (r : Registry) (types : List HeaderType) : List Finding :=
  let defined := types.flatMap HeaderType.spellings
  (Text.distinctBy Binding.spelling
      (r.bindings.filter fun b => !defined.contains b.spelling)).map fun b =>
    .unknownToHeader b.spelling b.odinName

def completeness (r : Registry) (types : List HeaderType) : List Finding :=
  missing r types ++ unknown r types

/-- The outcome of a lint run. -/
structure Report where
  findings : List Finding
  /-- How many public types the header has, if there was a header. -/
  headerTypes : Option Nat
deriving DecidableEq, Repr

namespace Report

def count (report : Report) (s : Severity) : Nat :=
  (report.findings.filter fun f => f.severity = s).length

def hasErrors (report : Report) : Bool :=
  report.count .error > 0

end Report

/-- The registry's own findings, then those against a header if one is given. -/
def run (r : Registry) (header : Option String) (s : LintSettings) : Report :=
  match header with
  | none => ⟨registry r, none⟩
  | some text =>
    let types := Header.scan s text
    ⟨registry r ++ completeness r types, some types.length⟩

end Lint

end LayoutGuard
