import LayoutGuard.Files.Path
import LayoutGuard.Text.Blank

/-!
How the probe program is built: the compiler command, the header that declares
the types, and the directories, definitions and flags it needs.
-/

namespace LayoutGuard

structure ProbeSettings where
  compiler : Option String
  header : String
  includeDirs : List Path
  /-- Macros as `NAME` or `NAME=VALUE`. -/
  defines : List String
  flags : List String
deriving DecidableEq, Repr

namespace ProbeSettings

/-- The definitions the binding is usually built with; they change layouts. -/
def defaultDefines : List String :=
  ["NK_INCLUDE_FIXED_TYPES", "NK_INCLUDE_STANDARD_BOOL", "NK_INCLUDE_COMMAND_USERDATA",
   "NK_KEYSTATE_BASED_INPUT"]

def default : ProbeSettings :=
  ⟨none, "nuklear.h", [⟨"."⟩], defaultDefines, []⟩

private def usable (command : Option String) : Option String :=
  command.filter fun c => !(Text.words c.toList).isEmpty

/-- The compiler command: the configured one, else the one that the environment
names, else `cc`. Blank commands count as absent. -/
def compilerCommand (s : ProbeSettings) (environment : Option String) : String :=
  ((usable s.compiler).or (usable environment)).getD "cc"

def compilerWords (s : ProbeSettings) (environment : Option String) : List String :=
  (Text.words (s.compilerCommand environment).toList).map String.ofList

def compilerProgram (s : ProbeSettings) (environment : Option String) : String :=
  (s.compilerWords environment).headD "cc"

/-- The arguments for a build of `source` into `target`. -/
def compilerArguments (s : ProbeSettings) (environment : Option String)
    (source target : Path) : List String :=
  (s.compilerWords environment).tail ++ s.flags ++
    s.includeDirs.flatMap (fun d => ["-I", d.text]) ++ ["-o", target.text, source.text]

end ProbeSettings

end LayoutGuard
