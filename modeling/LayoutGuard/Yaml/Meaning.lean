import LayoutGuard.Text.Quoted
import LayoutGuard.Text.Radix
import LayoutGuard.Text.Shortest
import LayoutGuard.Yaml.Node

/-!
What a scalar stands for when nobody asks for text: nothing, a truth value, a
number or a text. It is named in the message about a scalar that does not fit.
-/

namespace LayoutGuard.Yaml

inductive Meaning
  | nothing
  | boolean (b : Bool)
  | integer (n : Int)
  | real (x : Float)
  | text (s : String)

namespace Meaning

def isNull (cs : List Char) : Bool :=
  ["null", "Null", "NULL", "~"].contains (String.ofList cs)

def boolean? (cs : List Char) : Option Bool :=
  match String.ofList cs with
  | "true" | "True" | "TRUE" => some true
  | "false" | "False" | "FALSE" => some false
  | _ => none

/-- A number with an optional mark for its base. -/
def marked? : List Char → Option Nat
  | '0' :: 'x' :: cs => Text.natural? 16 cs
  | '0' :: 'o' :: cs => Text.natural? 8 cs
  | '0' :: 'b' :: cs => Text.natural? 2 cs
  | cs => Text.natural? 10 cs

def splitSign : List Char → Option Char × List Char
  | '+' :: cs => (some '+', cs)
  | '-' :: cs => (some '-', cs)
  | cs => (none, cs)

/-- Digits that begin with a zero are no number, except for zero itself. -/
def isPadded (cs : List Char) : Bool :=
  let digits := (splitSign cs).2
  1 < digits.length && digits.head? = some '0' && digits.all Text.isDigit

/-- Whether an integer fits one of the word sizes that integers can have. -/
def fits (n : Int) : Bool :=
  -(Int.pow 2 127) ≤ n && n < Int.pow 2 128

def integer? (cs : List Char) : Option Int :=
  if isPadded cs then none
  else
    let (sign, digits) := splitSign cs
    ((marked? digits).map fun n => if sign = some '-' then -(n : Int) else (n : Int)).filter fits

def exponent? : List Char → Option Int
  | [] => some 0
  | c :: cs =>
    if c = 'e' || c = 'E' then
      let (sign, digits) := splitSign cs
      (Text.natural? 10 digits).map fun n => if sign = some '-' then -(n : Int) else (n : Int)
    else none

/-- The number `digits * 10 ^ exponent`, unless it is too large for a float. -/
def scaled? (digits : Nat) (exponent : Int) : Option Float :=
  let leading : Int := exponent + (Text.Decimal.render digits).length
  if digits = 0 || leading < -400 then some 0.0
  else if 400 < leading then none
  else
    let x := Float.ofScientific digits (exponent < 0) exponent.natAbs
    if x.isFinite then some x else none

def decimal? (cs : List Char) : Option Float :=
  let (whole, rest) := cs.span Text.isDigit
  let (fraction, rest) := match rest with
    | '.' :: more => more.span Text.isDigit
    | _ => ([], rest)
  if whole.isEmpty && fraction.isEmpty then none
  else do
    let e ← exponent? rest
    scaled? (Text.Decimal.value (whole ++ fraction)) (e - fraction.length)

/-- Reads a floating point number, infinities and not-a-number included. -/
def real? (cs : List Char) : Option Float :=
  let infinity : Float := 1.0 / 0.0
  match String.ofList cs with
  | ".inf" | ".Inf" | ".INF" | "+.inf" | "+.Inf" | "+.INF" => some infinity
  | "-.inf" | "-.Inf" | "-.INF" => some (-infinity)
  | ".nan" | ".NaN" | ".NAN" => some (0.0 / 0.0)
  | _ =>
    let (sign, digits) := splitSign cs
    (decimal? digits).map fun x => if sign = some '-' then -x else x

def ofPlain (s : String) : Meaning :=
  let cs := s.toList
  if cs.isEmpty || isNull cs then .nothing
  else
    match boolean? cs, integer? cs with
    | some b, _ => .boolean b
    | none, some n => .integer n
    | none, none =>
      if isPadded cs then .text s
      else match real? cs with
        | some x => .real x
        | none => .text s

/-- All finite numbers are written without an exponent. -/
def realLayout : Text.Shortest.Layout :=
  ⟨-400, 400⟩

def realText (x : Float) : String :=
  if x.isNaN then "NaN"
  else if x.isInf then (if x < 0 then "-inf" else "inf")
  else String.ofList (Text.Shortest.text realLayout x)

def integerText (n : Int) : String :=
  let digits := Text.Decimal.text n.natAbs
  let number := "integer `" ++ (if n < 0 then "-" ++ digits else digits) ++ "`"
  if Int.pow 2 64 ≤ n then number ++ " as u128"
  else if n < -(Int.pow 2 63) then number ++ " as i128"
  else number

def quotedText (s : String) : String :=
  "string " ++ String.ofList (Text.Quoted.encode s.toList)

/-- How a message names the value. -/
def found : Meaning → String
  | nothing => "unit value"
  | boolean b => if b then "boolean `true`" else "boolean `false`"
  | integer n => integerText n
  | real x => "floating point `" ++ realText x ++ "`"
  | text s => quotedText s

/-- The meaning that a tag of the YAML core demands; the other part is the name
of the kind when the text is not of that kind. -/
def ofCoreTag? (tag text : String) : Option (Except String Meaning) :=
  let cs := text.toList
  match tag with
  | "tag:yaml.org,2002:bool" => some (((boolean? cs).map .boolean).elim (.error "a boolean") .ok)
  | "tag:yaml.org,2002:int" => some (((integer? cs).map .integer).elim (.error "an integer") .ok)
  | "tag:yaml.org,2002:float" => some (((real? cs).map .real).elim (.error "a float") .ok)
  | "tag:yaml.org,2002:null" => some (if isNull cs then .ok .nothing else .error "null")
  | _ => none

end Meaning

/-- The meaning of a scalar, or the kind that its tag demands in vain. -/
def Scalar.meaning (s : Scalar) : Except String Meaning :=
  let untagged := if s.style = .plain then Meaning.ofPlain s.text else .text s.text
  match s.tag with
  | none => .ok untagged
  | some tag =>
    match Meaning.ofCoreTag? tag s.text with
    | some result => result
    | none => if tag.toList.head? = some '!' then .ok untagged else .ok (.text s.text)

def Scalar.mismatch (s : Scalar) (expected : String) : Mismatch :=
  match s.meaning with
  | .ok m => .invalidType m.found expected
  | .error kind => .invalidValue (Meaning.quotedText s.text) kind

end LayoutGuard.Yaml
