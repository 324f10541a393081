/-!
Decoding UTF-8. A malformed sequence is cut where the first byte that cannot
continue it stands. Lenient decoding writes one replacement character for each
such sequence; strict decoding reports the first of them.
-/

namespace LayoutGuard.Text.Utf8

/-- What the bytes at some place begin with, given by the number of bytes after
the first. -/
inductive Head
  | scalar (c : Char) (more : Nat)
  /-- A malformed sequence. -/
  | stray (more : Nat)
  /-- A sequence that the end of the bytes cuts off. -/
  | cut
deriving DecidableEq, Repr

private def isContinuation (b : UInt8) : Bool :=
  0x80 ≤ b && b ≤ 0xbf

/-- The range of the second byte after a given first byte; it keeps out
overlong forms, surrogates and numbers beyond the last code point. -/
def secondRange (lead : UInt8) : UInt8 × UInt8 :=
  if lead = 0xe0 then (0xa0, 0xbf)
  else if lead = 0xed then (0x80, 0x9f)
  else if lead = 0xf0 then (0x90, 0xbf)
  else if lead = 0xf4 then (0x80, 0x8f)
  else (0x80, 0xbf)

/-- How many bytes have to follow a first byte, if it can begin a sequence. -/
def trailing? (lead : UInt8) : Option Nat :=
  if lead < 0x80 then some 0
  else if 0xc2 ≤ lead && lead ≤ 0xdf then some 1
  else if 0xe0 ≤ lead && lead ≤ 0xef then some 2
  else if 0xf0 ≤ lead && lead ≤ 0xf4 then some 3
  else none

private def leadBits (lead : UInt8) : Nat → Nat
  | 0 => lead.toNat
  | 1 => lead.toNat % 0x20
  | 2 => lead.toNat % 0x10
  | _ => lead.toNat % 0x08

/-- Reads followers after `taken` ones; `code` holds the bits read so far. -/
private def follow (code taken : Nat) : Nat → List UInt8 → Head
  | 0, _ => .scalar (Char.ofNat code) taken
  | _ + 1, [] => .cut
  | needed + 1, b :: bs =>
    if isContinuation b then follow (64 * code + b.toNat % 64) (taken + 1) needed bs
    else .stray taken

def head (lead : UInt8) (bs : List UInt8) : Head :=
  match trailing? lead with
  | none => .stray 0
  | some 0 => .scalar (Char.ofNat lead.toNat) 0
  | some (n + 1) =>
    match bs with
    | [] => .cut
    | b :: _ =>
      let (low, high) := secondRange lead
      if low ≤ b && b ≤ high then follow (leadBits lead (n + 1)) 0 (n + 1) bs else .stray 0

def lenient : List UInt8 → List Char
  | [] => []
  | b :: bs =>
    match head b bs with
    | .scalar c more => c :: lenient (bs.drop more)
    | .stray more => '\uFFFD' :: lenient (bs.drop more)
    | .cut => ['\uFFFD']
termination_by bs => bs.length
decreasing_by all_goals simp only [List.length_drop, List.length_cons]; omega

/-- Decodes bytes that begin at a given offset, or finds the offset of the first
malformed sequence and its length, which a sequence cut off at the end lacks. -/
def strictFrom (offset : Nat) : List UInt8 → Except (Nat × Option Nat) (List Char)
  | [] => .ok []
  | b :: bs =>
    match head b bs with
    | .scalar c more => (strictFrom (offset + 1 + more) (bs.drop more)).map (c :: ·)
    | .stray more => .error (offset, some (1 + more))
    | .cut => .error (offset, none)
termination_by bs => bs.length
decreasing_by all_goals simp only [List.length_drop, List.length_cons]; omega

def strict (bs : List UInt8) : Except (Nat × Option Nat) (List Char) :=
  strictFrom 0 bs

end LayoutGuard.Text.Utf8
