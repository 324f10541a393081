import LayoutGuard.Text.Decimal
import LayoutGuard.Text.Reading

/-!
The part of Odin that assertion files are written in: identifiers, the package
clause and compile-time assertions about the sizes of types.
-/

namespace LayoutGuard.Odin

def keywords : List String :=
  ["asm", "auto_cast", "bit_field", "bit_set", "break", "case", "cast", "context",
   "continue", "defer", "distinct", "do", "dynamic", "else", "enum", "fallthrough",
   "for", "foreign", "if", "import", "in", "map", "matrix", "not_in", "or_break",
   "or_continue", "or_else", "or_return", "package", "proc", "return", "struct",
   "switch", "transmute", "typeid", "union", "using", "when", "where"]

def isKeyword (name : String) : Bool :=
  keywords.contains name

/-- An ASCII identifier that is not a keyword. -/
def isIdentifier (name : String) : Bool :=
  Text.isName name.toList && !isKeyword name

def packageClause (package : String) : String :=
  "package " ++ package

/-- The claim that an Odin type has a size. -/
structure SizeAssertion where
  name : String
  size : UInt64
deriving DecidableEq, Repr

def SizeAssertion.text (a : SizeAssertion) : String :=
  "#assert(size_of(" ++ a.name ++ ") == " ++ Text.Decimal.text a.size.toNat ++ ")"

def SizeAssertion.ofLine? (line : List Char) : Option SizeAssertion := do
  let rest ← Text.literal? "#assert(size_of(" line
  let name := rest.takeWhile Text.isNameRest
  let rest ← Text.literal? ") == " (rest.dropWhile Text.isNameRest)
  let size ← Text.Decimal.readBelow? UInt64.size (rest.takeWhile Text.isDigit)
  guard (rest.dropWhile Text.isDigit = [')'])
  return ⟨String.ofList name, UInt64.ofNat size⟩

end LayoutGuard.Odin
