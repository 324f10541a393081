import Mathlib.Data.List.Basic
import LayoutGuard.Primitives.Host

/-!
What the memory functions store. A call that has something to do replaces the bytes of its
range by what the slot of the table makes of them, and no others. The standard slots store
the low byte of the value and the bytes of the source.
-/

namespace LayoutGuard.Primitives

variable {ε : Type}

def Holds (memory : List UInt8) (start : Nat) {n : Nat} (piece : Vector UInt8 n) : Prop :=
  ∀ i (h : i < n), memory[start + i]? = some piece[i]

/-- A piece of memory was replaced and nothing else. -/
structure Replaced (memory after : List UInt8) (start : Nat) {n : Nat} (piece : Vector UInt8 n) :
    Prop where
  length_eq : after.length = memory.length
  inside : Holds after start piece
  outside : ∀ i, i < start ∨ start + n ≤ i → after[i]? = memory[i]?

theorem holds_slice {memory : List UInt8} {start size : Nat}
    (h : start + size ≤ memory.length) : Holds memory start (slice memory start size h) := by
  intro i hi
  have hbound : start + i < memory.length := by omega
  rw [List.getElem?_eq_getElem hbound]
  simp [slice]

/-- Splicing in a piece replaces just the bytes under it. -/
theorem replaced_splice {memory : List UInt8} {start n : Nat} (piece : Vector UInt8 n)
    (h : start + n ≤ memory.length) : Replaced memory (splice memory start piece) start piece := by
  have htake : (memory.take start).length = start := by
    rw [List.length_take]
    omega
  refine ⟨?_, ?_, ?_⟩
  · simp only [splice, List.length_append, htake, Vector.length_toList, List.length_drop]
    omega
  · intro i hi
    rw [splice, List.append_assoc, List.getElem?_append_right (by omega), htake,
      Nat.add_sub_cancel_left, List.getElem?_append_left (by simpa using hi)]
    simp [hi]
  · intro i hi
    rcases hi with hbefore | hbehind
    · rw [splice, List.append_assoc, List.getElem?_append_left (by omega),
        List.getElem?_take_of_lt hbefore]
    · have hlength : (memory.take start ++ piece.toList).length = start + n := by
        rw [List.length_append, htake, Vector.length_toList]
      rw [splice, List.getElem?_append_right (by omega), hlength, List.getElem?_drop]
      congr 1
      omega

/-! One call -/

/-- The byte is written to by the call. -/
def Call.Covers (i : Nat) : Call → Prop
  | .memset (some start) _ size => start ≤ i ∧ i < start + size
  | .memcpy (some start) (some _) size => start ≤ i ∧ i < start + size
  | _ => False

/-- The pointers are null, or else valid for as many bytes as are written and read. -/
def Call.Fits (length : Nat) : Call → Prop
  | .memset (some start) _ size => 0 < size → start + size ≤ length
  | .memcpy (some start) (some bytes) size =>
    0 < size → start + size ≤ length ∧ size ≤ bytes.length
  | _ => True

/-- What the memory functions of a table come to. -/
inductive Stores (t : Primitives ε) (memory : List UInt8) :
    Call → Answer ε → List UInt8 → Prop
  | fillNothing {dest : Option Nat} {value : Int32} {size : Nat} (h : dest = none ∨ size = 0) :
    Stores t memory (.memset dest value size) .nothing memory
  | fill {start : Nat} {value : Int32} {size : Nat} {old : Vector UInt8 size}
      {after : List UInt8} (hold : Holds memory start old)
      (h : Replaced memory after start (t.fill old (byteOf value.toInt))) :
    Stores t memory (.memset (some start) value size) .nothing after
  | copyNothing {dest : Option Nat} {source : Option (List UInt8)} {size : Nat}
      (h : dest = none ∨ source = none ∨ size = 0) :
    Stores t memory (.memcpy dest source size) (.address dest) memory
  | copy {start size : Nat} {bytes : List UInt8} {old source : Vector UInt8 size}
      {after : List UInt8} (hold : Holds memory start old) (hsource : Holds bytes 0 source)
      (h : Replaced memory after start (t.copy old source)) :
    Stores t memory (.memcpy (some start) (some bytes) size) (.address (some start)) after

variable {t : Primitives ε} {memory after : List UInt8} {c : Call} {a : Answer ε}

/-- Filling does what the slot for it says, or nothing at a null pointer or for no bytes. -/
theorem stores_memset {dest : Option Nat} {value : Int32} {size : Nat}
    (h : (Call.memset dest value size).Fits memory.length) :
    Stores t memory (.memset dest value size) .nothing
      (t.memset memory dest value.toInt size) := by
  cases dest with
  | none => exact .fillNothing (Or.inl rfl)
  | some start =>
    by_cases hsize : size = 0
    · have hsame : t.memset memory (some start) value.toInt size = memory := by
        simp [memset, hsize]
      rw [hsame]
      exact .fillNothing (Or.inr hsize)
    · have hrange : start + size ≤ memory.length := h (Nat.pos_of_ne_zero hsize)
      simp only [memset, dif_pos hrange, if_neg hsize]
      exact .fill (holds_slice hrange) (replaced_splice _ hrange)

/-- Copying does what the slot for it says, or nothing at a null pointer or for no bytes. -/
theorem stores_memcpy {dest : Option Nat} {source : Option (List UInt8)} {size : Nat}
    (h : (Call.memcpy dest source size).Fits memory.length) :
    Stores t memory (.memcpy dest source size) (.address (t.memcpy memory dest source size).1)
      (t.memcpy memory dest source size).2 := by
  cases dest with
  | none => exact .copyNothing (Or.inl rfl)
  | some start =>
    cases source with
    | none => exact .copyNothing (Or.inr (Or.inl rfl))
    | some bytes =>
      by_cases hsize : size = 0
      · have hsame : t.memcpy memory (some start) (some bytes) size = (some start, memory) := by
          simp [memcpy, hsize]
        rw [hsame]
        exact .copyNothing (Or.inr (Or.inr hsize))
      · obtain ⟨hrange, hsource⟩ := h (Nat.pos_of_ne_zero hsize)
        have hboth : start + size ≤ memory.length ∧ 0 + size ≤ bytes.length :=
          ⟨hrange, by omega⟩
        simp only [memcpy, dif_pos hboth, if_neg hsize]
        exact .copy (holds_slice hrange) (holds_slice hboth.2) (replaced_splice _ hrange)

theorem Stores.length_eq (h : Stores t memory c a after) : after.length = memory.length := by
  cases h with
  | fillNothing => rfl
  | fill _ h => exact h.length_eq
  | copyNothing => rfl
  | copy _ _ h => exact h.length_eq

/-- Bytes that a call does not cover stay. -/
theorem Stores.outside (h : Stores t memory c a after) {i : Nat} (hi : ¬c.Covers i) :
    after[i]? = memory[i]? := by
  cases h with
  | fillNothing => rfl
  | fill _ h =>
    simp only [Call.Covers] at hi
    exact h.outside i (by omega)
  | copyNothing => rfl
  | copy _ _ h =>
    simp only [Call.Covers] at hi
    exact h.outside i (by omega)

/-! The standard slots -/

/-- The byte that an integer is reduced to is its remainder, also below zero. -/
theorem toNat_byteOf (value : Int) : ((byteOf value).toNat : Int) = value % 256 := by
  rw [byteOf, UInt8.toNat_ofNat']
  omega

/-- What the standard slots leave in the range of a call. -/
def StandardContents (after : List UInt8) : Call → Prop
  | .memset (some start) value size =>
    ∀ i < size, ∃ b, after[start + i]? = some b ∧ (b.toNat : Int) = value.toInt % 256
  | .memcpy (some start) (some bytes) size => ∀ i < size, after[start + i]? = bytes[i]?
  | _ => True

/-- The standard slots store the low byte of the value and the bytes of the source. -/
theorem Stores.standardContents (h : Stores standard memory c a after) :
    StandardContents after c := by
  cases h with
  | @fillNothing dest value size h =>
    cases dest with
    | none => trivial
    | some start =>
      intro i hi
      obtain rfl : size = 0 := h.resolve_left (Option.some_ne_none start)
      exact absurd hi i.not_lt_zero
  | @fill start value size old _ hold h =>
    intro i hi
    refine ⟨byteOf value.toInt, ?_, toNat_byteOf value.toInt⟩
    rw [h.inside i hi]
    simp [standard]
  | @copyNothing dest source size h =>
    cases dest with
    | none => trivial
    | some start =>
      cases source with
      | none => trivial
      | some bytes =>
        intro i hi
        have hsize : size = 0 := by simpa using h
        exact absurd (hsize ▸ hi) i.not_lt_zero
  | copy _ hsource h =>
    intro i hi
    have hread := hsource i hi
    rw [Nat.zero_add] at hread
    rw [h.inside i hi, hread]
    rfl

end LayoutGuard.Primitives
