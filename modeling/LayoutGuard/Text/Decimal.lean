import LayoutGuard.Text.Ascii

/-!
Natural numbers in decimal notation: `render` writes the digits without
leading zeros, `read?` reads a non-empty run of ASCII digits back.
-/

namespace LayoutGuard.Text.Decimal

def digit (n : Nat) : Char :=
  Char.ofNat (48 + n)

/-- Decimal digits, most significant first; zero is one digit. -/
def render (n : Nat) : List Char :=
  if n < 10 then [digit n] else render (n / 10) ++ [digit (n % 10)]

def digitValue (c : Char) : Nat :=
  c.toNat - 48

def value (cs : List Char) : Nat :=
  cs.foldl (fun n c => 10 * n + digitValue c) 0

/-- Reads a non-empty run of ASCII digits. -/
def read? (cs : List Char) : Option Nat :=
  if !cs.isEmpty && cs.all isDigit then some (value cs) else none

def readBelow? (bound : Nat) (cs : List Char) : Option Nat :=
  (read? cs).filter (· < bound)

def padLeft (width : Nat) (cs : List Char) : List Char :=
  List.replicate (width - cs.length) ' ' ++ cs

def text (n : Nat) : String :=
  String.ofList (render n)

end LayoutGuard.Text.Decimal
