import LayoutGuard.Text.Decimal

/-!
The shortest decimal for a floating point number: of all decimals that read back
as the number, those with the fewest digits, and of these the nearest. The
number is `m * 2 ^ q` with whole `m`; a decimal reads back if it lies between
the midpoints to the neighbouring numbers, ends included when `m` is even.
-/

namespace LayoutGuard.Text.Shortest

/-- A positive number `m * 2 ^ q`. At a power of two the lower neighbour is only
half as far away. -/
structure Binary where
  mantissa : Nat
  exponent : Int
  atPowerOfTwo : Bool
deriving DecidableEq, Repr

/-- The decimal `digits * 10 ^ exponent`. -/
structure Scaled where
  digits : Nat
  exponent : Int
deriving DecidableEq, Repr

/-- Compares `a * 2 ^ q` with `d * 10 ^ p`. -/
def compareScaled (a : Nat) (q : Int) (d : Nat) (p : Int) : Ordering :=
  compare ((a <<< q.toNat) * Nat.pow 10 (-p).toNat) ((d * Nat.pow 10 p.toNat) <<< (-q).toNat)

/-- Whether a decimal lies in the interval that reads back as the number. -/
def readsBack (b : Binary) (d : Scaled) : Bool :=
  let low := 4 * b.mantissa - (if b.atPowerOfTwo then 1 else 2)
  let high := 4 * b.mantissa + 2
  let toLow := compareScaled low (b.exponent - 2) d.digits d.exponent
  let toHigh := compareScaled high (b.exponent - 2) d.digits d.exponent
  if b.mantissa % 2 = 0 then toLow != .gt && toHigh != .lt else toLow == .lt && toHigh == .gt

/-- The greatest `d` with `d * 10 ^ p` at most the number. -/
def floorAt (b : Binary) (p : Int) : Nat :=
  ((b.mantissa <<< b.exponent.toNat) * Nat.pow 10 (-p).toNat) /
    (Nat.pow 10 p.toNat <<< (-b.exponent).toNat)

/-- The exponent of the leading decimal digit, searched downwards. -/
def leadingExponent (b : Binary) : Nat → Int → Int
  | 0, k => k
  | fuel + 1, k => if floorAt b k = 0 then leadingExponent b fuel (k - 1) else k

/-- Of two adjacent grid points around the number, whether the upper is nearer;
a tie goes to the even one. -/
def upperIsNearer (b : Binary) (lower : Scaled) : Bool :=
  match compareScaled (2 * b.mantissa) b.exponent (2 * lower.digits + 1) lower.exponent with
  | .lt => false
  | .gt => true
  | .eq => decide (lower.digits % 2 = 1)

/-- A decimal on the grid `10 ^ p` that reads back. -/
def onGrid? (b : Binary) (p : Int) : Option Scaled :=
  let lower : Scaled := ⟨floorAt b p, p⟩
  let upper : Scaled := ⟨lower.digits + 1, p⟩
  match readsBack b lower && lower.digits != 0, readsBack b upper with
  | true, true => some (if upperIsNearer b lower then upper else lower)
  | true, false => some lower
  | false, true => some upper
  | false, false => none

def search (b : Binary) (p : Int) : Nat → Scaled
  | 0 => ⟨floorAt b p, p⟩
  | fuel + 1 => (onGrid? b p).getD (search b (p - 1) fuel)

def shortest (b : Binary) : Scaled :=
  search b (leadingExponent b 700 310) 17

def trimZeros (fuel : Nat) (d : Scaled) : Scaled :=
  match fuel with
  | 0 => d
  | fuel + 1 =>
    if d.digits % 10 = 0 && d.digits != 0 then trimZeros fuel ⟨d.digits / 10, d.exponent + 1⟩
    else d

/-- Sign and absolute value of a finite number; zero has no binary form. -/
def decompose (x : Float) : Bool × Option Binary :=
  let bits := x.toBits.toNat
  let implicit : Nat := Nat.pow 2 52
  let fraction : Nat := bits % implicit
  let biased : Nat := bits / implicit % 2048
  let value : Option Binary :=
    if biased = 0 then
      if fraction = 0 then none else some ⟨fraction, -1074, false⟩
    else some ⟨implicit + fraction, (biased : Int) - 1075, fraction = 0 && biased > 1⟩
  (decide (UInt64.size / 2 ≤ bits), value)

/-- How a format lays digits out. -/
structure Layout where
  /-- The exponents of the leading digit that are written without an exponent. -/
  lowest : Int
  highest : Int
deriving DecidableEq, Repr

/-- Digits with a point; whole numbers get one zero after it. -/
def positional (d : Scaled) : List Char :=
  let digits := Decimal.render d.digits
  if 0 ≤ d.exponent then digits ++ List.replicate d.exponent.toNat '0' ++ ".0".toList
  else
    let places := (-d.exponent).toNat
    if places < digits.length then
      digits.take (digits.length - places) ++ '.' :: digits.drop (digits.length - places)
    else "0.".toList ++ List.replicate (places - digits.length) '0' ++ digits

/-- One digit before the point, and an exponent with a sign and two digits. -/
def scientific (d : Scaled) : List Char :=
  let digits := Decimal.render d.digits
  let e : Int := d.exponent + (digits.length - 1 : Nat)
  let e' := Decimal.render e.natAbs
  digits.take 1 ++ (if digits.length > 1 then '.' :: digits.drop 1 else []) ++
    ['e', if e < 0 then '-' else '+'] ++ (if e'.length < 2 then '0' :: e' else e')

def text (l : Layout) (x : Float) : List Char :=
  let (negative, value) := decompose x
  let sign := if negative then ['-'] else []
  match value with
  | none => sign ++ "0.0".toList
  | some b =>
    let d := trimZeros 20 (shortest b)
    let e : Int := d.exponent + ((Decimal.render d.digits).length - 1 : Nat)
    sign ++ (if l.lowest ≤ e && e ≤ l.highest then positional d else scientific d)

end LayoutGuard.Text.Shortest
