import LayoutGuard.Text.Decimal

/-!
Why a YAML text is refused as a configuration: faults of the notation itself
and values that do not fit the expected shape.
-/

namespace LayoutGuard.Yaml

/-- A place in the text: characters read, line and column, all from zero. -/
structure Mark where
  index : Nat
  line : Nat
  column : Nat
deriving DecidableEq, Repr

namespace Mark

def start : Mark :=
  ⟨0, 0, 0⟩

/-- The beginning of the text has no line and column of its own in messages. -/
def isStart (m : Mark) : Bool :=
  m.line = 0 && m.column = 0

def text (m : Mark) : String :=
  "line " ++ Text.Decimal.text (m.line + 1) ++ " column " ++ Text.Decimal.text (m.column + 1)

end Mark

/-- A value that does not fit. -/
inductive Mismatch
  | invalidType (found expected : String)
  | invalidValue (found expected : String)
  | unknownField (name : String) (known : List String)
  | duplicateField (name : String)
deriving DecidableEq, Repr

namespace Mismatch

private def quoted (name : String) : String :=
  "`" ++ name ++ "`"

private def choice : List String → String
  | [] => "there are no fields"
  | [a] => "expected " ++ quoted a
  | [a, b] => "expected " ++ quoted a ++ " or " ++ quoted b
  | names => "expected one of " ++ String.intercalate ", " (names.map quoted)

def text : Mismatch → String
  | invalidType found expected => "invalid type: " ++ found ++ ", expected " ++ expected
  | invalidValue found expected => "invalid value: " ++ found ++ ", expected " ++ expected
  | unknownField name known => "unknown field " ++ quoted name ++ ", " ++ choice known
  | duplicateField name => "duplicate field " ++ quoted name

end Mismatch

inductive Failure
  /-- A fault of the notation at a place, with the construct being read. -/
  | malformed (problem : String) (at_ : Mark) (context : Option (String × Mark))
  /-- A character that YAML texts cannot hold. -/
  | badCharacter (offset : Nat)
  | unknownAnchor (at_ : Mark)
  /-- The text holds no value where one is needed. -/
  | endOfStream
  | moreThanOneDocument
  /-- A value of the wrong shape, with the path of keys that leads to it. -/
  | mismatch (m : Mismatch) (path : String) (at_ : Mark)
deriving DecidableEq, Repr

namespace Failure

private def located (message : String) (m : Mark) : String :=
  if m.isStart then message else message ++ " at " ++ m.text

def text : Failure → String
  | .malformed problem m none => located problem m
  | .malformed problem m (some (context, start)) =>
    located problem m ++ ", " ++ (if start = m then context else located context start)
  | badCharacter offset =>
    "control characters are not allowed at position " ++ Text.Decimal.text offset
  | unknownAnchor m => located "unknown anchor" m
  | endOfStream => "EOF while parsing a value"
  | moreThanOneDocument =>
    "deserializing from YAML containing more than one document is not supported"
  | mismatch m path at_ =>
    located (if path.isEmpty then m.text else path ++ ": " ++ m.text) at_

end Failure

end LayoutGuard.Yaml
