import LayoutGuard.Files.Path

/-!
The command line. Options that take a value have it in the same word or in the
next one; an option is given once, except that the general options may be given
again behind the subcommand, where they win.
-/

namespace LayoutGuard.Command

/-- What is to be done. -/
inductive Task
  | generate (output : Option Path) (package : Option String) (layouts : Option Path)
  | measure (output : Option Path)
  | check (file : Option Path) (package : Option String) (layouts : Option Path)
  | lint (header : Option Path)
deriving DecidableEq, Repr

structure Invocation where
  config : Option Path
  task : Task
deriving DecidableEq, Repr

/-- What a command line asks for. -/
inductive Request
  | perform (i : Invocation)
  | version
  | help
deriving DecidableEq, Repr

/-- The options of all subcommands. -/
inductive Opt
  | config
  | logLevel
  | output
  | package
  | layouts
  | file
  | header
deriving DecidableEq, Repr

/-- Paths may not be empty. -/
def Opt.takesPath : Opt → Bool
  | .logLevel => false
  | .package => false
  | _ => true

inductive Verb
  | generate
  | measure
  | check
  | lint
deriving DecidableEq, Repr

def Verb.ofWord? : List Char → Option Verb := fun cs =>
  match String.ofList cs with
  | "generate" => some .generate
  | "measure" => some .measure
  | "check" => some .check
  | "lint" => some .lint
  | _ => none

/-- The options that a subcommand takes, or that stand before it. -/
def optionsOf : Option Verb → List Opt
  | none => [.config, .logLevel]
  | some .generate => [.config, .logLevel, .output, .package, .layouts]
  | some .measure => [.config, .logLevel, .output]
  | some .check => [.config, .logLevel, .file, .package, .layouts]
  | some .lint => [.config, .logLevel, .header]

def Opt.longName : Opt → String
  | .config => "config"
  | .logLevel => "log-level"
  | .output => "output"
  | .package => "package"
  | .layouts => "layouts"
  | .file => "file"
  | .header => "header"

def Opt.shortName? : Opt → Option Char
  | .output => some 'o'
  | .package => some 'p'
  | .file => some 'f'
  | _ => none

abbrev Values :=
  List (Opt × String)

def Values.get? (vs : Values) (o : Opt) : Option String :=
  vs.lookup o

def Values.path? (vs : Values) (o : Opt) : Option Path :=
  (vs.get? o).map Path.mk

/-- What one word of the command line is. -/
inductive Word
  | helpFlag
  | versionFlag
  /-- An option, with its value if that is in the same word. -/
  | option (o : Opt) (value : Option (List Char))
  | separator
  | plain
  | unknown
deriving DecidableEq, Repr

private def longWord (verb : Option Verb) (body : List Char) : Word :=
  let name := String.ofList (body.takeWhile (· ≠ '='))
  let value := match body.dropWhile (· ≠ '=') with
    | [] => none
    | _ :: v => some v
  match (optionsOf verb).find? fun o => o.longName = name with
  | some o => .option o value
  | none =>
    if value.isSome then .unknown
    else if name = "help" then .helpFlag
    else if name = "version" && verb.isNone then .versionFlag
    else .unknown

private def shortWord (verb : Option Verb) (c : Char) (rest : List Char) : Word :=
  match (optionsOf verb).find? fun o => o.shortName? = some c with
  | some o =>
    .option o (match rest with
      | [] => none
      | '=' :: v => some v
      | v => some v)
  | none =>
    if c = 'h' then .helpFlag
    else if c = 'V' && verb.isNone then .versionFlag
    else .unknown

def classify (verb : Option Verb) : List Char → Word
  | ['-', '-'] => .separator
  | '-' :: '-' :: body => longWord verb body
  | '-' :: c :: rest => shortWord verb c rest
  | _ => .plain

/-- A word that can be the value of the option before it. -/
def isValue : List Char → Bool
  | '-' :: _ :: _ => false
  | _ => true

/-- Adds an option, unless it is there already or its value may not be empty. -/
def addValue (vs : Values) (o : Opt) (value : List Char) : Option Values :=
  if (vs.get? o).isSome || (o.takesPath && value.isEmpty) then none
  else some ((o, String.ofList value) :: vs)

/-- The words behind the subcommand `help` have to name subcommands. -/
def helpRequest? : List (List Char) → Option Request
  | [] => some .help
  | [w] => if (Verb.ofWord? w).isSome || w = "help".toList then some .help else none
  | _ => none

def taskOf : Option Verb → Values → Task
  | some .measure, vs => .measure (vs.path? .output)
  | some .check, vs => .check (vs.path? .file) (vs.get? .package) (vs.path? .layouts)
  | some .lint, vs => .lint (vs.path? .header)
  | _, vs => .generate (vs.path? .output) (vs.get? .package) (vs.path? .layouts)

def invocation (verb : Option Verb) (outer inner : Values) : Request :=
  .perform ⟨(inner.path? .config).or (outer.path? .config), taskOf verb inner⟩

/-- Reads the words behind `verb`; `outer` holds the options before it. Nothing
is the answer to a wrong command line. -/
def readWords (verb : Option Verb) (outer inner : Values) : List (List Char) → Option Request
  | [] => some (invocation verb outer inner)
  | w :: rest =>
    match classify verb w with
    | .helpFlag => some .help
    | .versionFlag => some .version
    | .option o (some value) => do readWords verb outer (← addValue inner o value) rest
    | .option o none =>
      match rest with
      | [] => none
      | value :: rest =>
        if isValue value then do readWords verb outer (← addValue inner o value) rest else none
    | .separator => if rest.isEmpty then some (invocation verb outer inner) else none
    | .unknown => none
    | .plain =>
      if verb.isSome then none
      else
        match Verb.ofWord? w with
        | some v => readWords (some v) inner [] rest
        | none => if w = "help".toList then helpRequest? rest else none

def readArguments (words : List String) : Option Request :=
  readWords none [] [] (words.map String.toList)

end LayoutGuard.Command
