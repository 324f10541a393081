import LayoutGuard.Primitives

/-!
The native library at work. It calls the functions of whatever table is active,
and in between the host may install a table or bring back the one before.
-/

namespace LayoutGuard.Primitives

/-- A call of one of the functions. A pointer is a position in memory or null;
what is copied is given by the bytes that stand at its pointer. -/
inductive Call
  | memset (dest : Option Nat) (value : Int32) (size : Nat)
  | memcpy (dest : Option Nat) (source : Option (List UInt8)) (size : Nat)
  | inverseSqrt (x : Float32)
  | sin (x : Float32)
  | cos (x : Float32)
  | atan (x : Float32)
  | atan2 (y x : Float32)
  | assertion (condition file : Option (List UInt8)) (line : Int32)

/-- What a call gives back. -/
inductive Answer (ε : Type)
  | nothing
  | address (dest : Option Nat)
  | number (x : Float32)
  | handled (effect : ε) (logged : Remark)

variable {ε : Type}

/-- The answer to a call and the memory behind it; there is none when the
process is aborted. -/
def answer (t : Primitives ε) (memory : List UInt8) : Call → Option (Answer ε × List UInt8)
  | .memset dest value size => some (.nothing, t.memset memory dest value.toInt size)
  | .memcpy dest source size =>
    let (returned, after) := t.memcpy memory dest source size
    some (.address returned, after)
  | .inverseSqrt x => some (.number (t.inverseSqrt x), memory)
  | .sin x => some (.number (t.sin x), memory)
  | .cos x => some (.number (t.cos x), memory)
  | .atan x => some (.number (t.atan x), memory)
  | .atan2 y x => some (.number (t.atan2 y x), memory)
  | .assertion condition file line =>
    let (effect, logged) := t.assertionFailed (.ofReport condition file line.toInt)
    effect.map fun e => (.handled e logged, memory)

/-- What happens to the host. -/
inductive Step (ε : Type)
  | install (t : Primitives ε)
  /-- The table that the last installation gave back is installed again. -/
  | restore
  | call (c : Call)

structure Host (ε : Type) where
  tables : PrimitiveStack ε
  memory : List UInt8

namespace Host

/-- One step and the answer, if it is a call. Nothing comes of a restoration
without an installation before it, nor of a call that aborts the process. -/
def step? (s : Host ε) : Step ε → Option (Host ε × Option (Answer ε))
  | .install t => some ({ s with tables := s.tables.enter t }, none)
  | .restore => s.tables.restore?.map fun tables => ({ s with tables }, none)
  | .call c =>
    (s.tables.active.answer s.memory c).map fun r => ({ s with memory := r.2 }, some r.1)

def run? (s : Host ε) : List (Step ε) → Option (Host ε)
  | [] => some s
  | step :: steps => (s.step? step).bind fun r => r.1.run? steps

end Host

end LayoutGuard.Primitives
