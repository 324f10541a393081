import LayoutGuard.Log
import LayoutGuard.Text.Decimal
import LayoutGuard.Text.Utf8

/-!
The functions that the native library is built against: filling and copying
memory, a little mathematics and the report of failed assertions. They are
reached through a table that a host can replace, and tables nest.
-/

namespace LayoutGuard

/-- An assertion of the native library that did not hold. -/
structure AssertionFailure where
  condition : String
  file : String
  line : Nat
deriving DecidableEq, Repr

namespace AssertionFailure

/-- The text at a pointer; a null pointer has a text of its own. -/
def textAt : Option (List UInt8) → String
  | none => "<null>"
  | some bytes => String.ofList (Text.Utf8.lenient bytes)

/-- The failure as the native library reports it; no line is negative. -/
def ofReport (condition file : Option (List UInt8)) (line : Int) : AssertionFailure :=
  ⟨textAt condition, textAt file, line.toNat⟩

def remark (f : AssertionFailure) : Remark :=
  ⟨.error, "[ERROR] Nuklear assertion failed: " ++ f.condition ++ " (" ++ f.file ++ ":" ++
    Text.Decimal.text f.line ++ ")"⟩

end AssertionFailure

/-- A table of functions. What handling a failed assertion comes to is an `ε`;
without a handler the process is aborted. -/
structure Primitives (ε : Type) where
  /-- The new contents of a piece of memory that is filled with a byte. -/
  fill : {n : Nat} → Vector UInt8 n → UInt8 → Vector UInt8 n
  /-- The new contents of a piece of memory that another one is copied to. -/
  copy : {n : Nat} → Vector UInt8 n → Vector UInt8 n → Vector UInt8 n
  inverseSqrt : Float32 → Float32
  sin : Float32 → Float32
  cos : Float32 → Float32
  atan : Float32 → Float32
  /-- The angle of a point, ordinate first. -/
  atan2 : Float32 → Float32 → Float32
  handler : Option (AssertionFailure → ε)

namespace Primitives

variable {ε : Type}

def standard : Primitives ε where
  fill {n} _ byte := Vector.replicate n byte
  copy _ source := source
  inverseSqrt x := 1.0 / x.sqrt
  sin := Float32.sin
  cos := Float32.cos
  atan := Float32.atan
  atan2 := Float32.atan2
  handler := none

def slice (memory : List UInt8) (start size : Nat) (h : start + size ≤ memory.length) :
    Vector UInt8 size :=
  ⟨((memory.drop start).take size).toArray, by simp; omega⟩

def splice {n : Nat} (memory : List UInt8) (start : Nat) (piece : Vector UInt8 n) : List UInt8 :=
  memory.take start ++ piece.toList ++ memory.drop (start + n)

def byteOf (value : Int) : UInt8 :=
  UInt8.ofNat (value % 256).toNat

/-- Fills memory at an address; a null pointer or an empty piece changes nothing. -/
def memset (t : Primitives ε) (memory : List UInt8) (dest : Option Nat) (value : Int)
    (size : Nat) : List UInt8 :=
  match dest with
  | none => memory
  | some start =>
    if h : start + size ≤ memory.length then
      if size = 0 then memory
      else splice memory start (t.fill (slice memory start size h) (byteOf value))
    else memory

/-- Copies the beginning of `source` to an address and returns the address. -/
def memcpy (t : Primitives ε) (memory : List UInt8) (dest : Option Nat)
    (source : Option (List UInt8)) (size : Nat) : Option Nat × List UInt8 :=
  match dest, source with
  | some start, some bytes =>
    if h : start + size ≤ memory.length ∧ 0 + size ≤ bytes.length then
      if size = 0 then (dest, memory)
      else
        (dest, splice memory start
          (t.copy (slice memory start size h.1) (slice bytes 0 size h.2)))
    else (dest, memory)
  | _, _ => (dest, memory)

/-- What becomes of a failed assertion: the effect of the handler, or none if
there is no handler and the process is aborted. Either way it is logged. -/
def assertionFailed (t : Primitives ε) (f : AssertionFailure) : Option ε × Remark :=
  (t.handler.map fun h => h f, f.remark)

end Primitives

/-- The active table, and the tables that were given back for restorations to come, the last
one in front. -/
structure PrimitiveStack (ε : Type) where
  active : Primitives ε
  replaced : List (Primitives ε)

namespace PrimitiveStack

variable {ε : Type}

def ofTable (t : Primitives ε) : PrimitiveStack ε :=
  ⟨t, []⟩

/-- Makes a table the active one and gives back the one that it replaces. -/
def install (s : PrimitiveStack ε) (t : Primitives ε) : Primitives ε × PrimitiveStack ε :=
  (s.active, { s with active := t })

/-- An installation that is to be undone: the table that it gives back is kept. -/
def enter (s : PrimitiveStack ε) (t : Primitives ε) : PrimitiveStack ε :=
  let (previous, after) := s.install t
  { after with replaced := previous :: after.replaced }

/-- Installs the table that was kept last; what this gives back is not needed. -/
def restore? (s : PrimitiveStack ε) : Option (PrimitiveStack ε) :=
  match s.replaced with
  | [] => none
  | previous :: kept => some ({ s with replaced := kept }.install previous).2

end PrimitiveStack

end LayoutGuard
