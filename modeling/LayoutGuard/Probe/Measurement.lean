import LayoutGuard.Probe.Diagnosis
import LayoutGuard.Probe.Listing
import LayoutGuard.Text.Utf8

/-!
Measuring: the probe program is compiled and run, and its listing becomes a size
table. What the compiler and the probe do is given as a toolchain.
-/

namespace LayoutGuard

inductive ExitStatus
  | exited (code : Nat)
  | killed (signal : Nat)
deriving DecidableEq, Repr

namespace ExitStatus

def isSuccess (s : ExitStatus) : Bool :=
  s = .exited 0

private def signalName : Nat → String
  | 1 => " (SIGHUP)"
  | 2 => " (SIGINT)"
  | 3 => " (SIGQUIT)"
  | 4 => " (SIGILL)"
  | 6 => " (SIGABRT)"
  | 7 => " (SIGBUS)"
  | 8 => " (SIGFPE)"
  | 9 => " (SIGKILL)"
  | 11 => " (SIGSEGV)"
  | 13 => " (SIGPIPE)"
  | 15 => " (SIGTERM)"
  | _ => ""

def text : ExitStatus → String
  | exited code => "exit status: " ++ Text.Decimal.text code
  | killed signal => "signal: " ++ Text.Decimal.text signal ++ signalName signal

end ExitStatus

/-- What a process left behind. -/
structure Finished where
  status : ExitStatus
  output : List UInt8
  diagnostics : List UInt8
deriving DecidableEq, Repr

/-- A compiler that ran, and what came of running the program it built. -/
structure Build where
  compiler : Finished
  program : Except IoFault Finished

/-- How a compiler behaves: a program name, its arguments and the source text
give a build, or the reason why nothing was started. -/
abbrev Toolchain :=
  String → List String → String → Except IoFault Build

namespace Probe

/-- The course of a measurement. -/
structure Measurement where
  /-- The arguments of the compiler, if it was started. -/
  arguments : Option (List String)
  remarks : List Remark
  result : Except Fault SizeTable

def readProgram (r : Registry) (p : Finished) : Except Fault SizeTable :=
  if p.status.isSuccess then
    match Text.Utf8.strict p.output with
    | .error (offset, length) => .error (.badListing (.notText offset length))
    | .ok listing => (readListing r listing).mapError .badListing
  else
    .error (.probeFailed p.status.text (String.ofList (Text.Utf8.lenient p.diagnostics)))

def readBuild (r : Registry) (compiler : String) (program : List Char) (build : Build) :
    Except Fault SizeTable × List Remark :=
  if build.compiler.status.isSuccess then
    match build.program with
    | .error e => (.error (.io e), [])
    | .ok p => (readProgram r p, [])
  else
    let (f, remarks) :=
      diagnose r compiler program (Text.Utf8.lenient build.compiler.diagnostics)
    (.error f, remarks)

/-- The operating system takes no command with a NUL character in it. -/
def startCompiler (tools : Toolchain) (program : String) (arguments : List String)
    (source : String) : Except IoFault Build :=
  if (program :: arguments).any fun w => w.toList.contains '\x00' then .error .nulInCommand
  else tools program arguments source

/-- Compiles and runs the probe in a scratch directory. -/
def measure (s : ProbeSettings) (environment : Option String) (tools : Toolchain)
    (scratch : Path) (r : Registry) : Measurement :=
  let compiler := s.compilerCommand environment
  let source := text s r
  let arguments :=
    s.compilerArguments environment (scratch.join ⟨"probe.c"⟩) (scratch.join ⟨"probe"⟩)
  match startCompiler tools (s.compilerProgram environment) arguments (String.ofList source) with
  | .error e => ⟨none, [], .error (.compilerUnavailable compiler e)⟩
  | .ok build =>
    let (result, remarks) := readBuild r compiler source build
    ⟨some arguments, remarks, result⟩

end Probe

end LayoutGuard
