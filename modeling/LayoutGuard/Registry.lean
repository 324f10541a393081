import LayoutGuard.Fault

/-!
The registry: an ordered list of C types and the Odin names bound to them. A
type may be listed more than once; look-ups answer with its first entry.
-/

namespace LayoutGuard

structure Binding where
  ctype : CType
  odinName : String
deriving DecidableEq, Repr

namespace Binding

def spelling (b : Binding) : String :=
  b.ctype.spelling

def text (b : Binding) : String :=
  b.spelling ++ " -> " ++ b.odinName

end Binding

structure Registry where
  bindings : List Binding
deriving DecidableEq, Repr

namespace Registry

def size (r : Registry) : Nat :=
  r.bindings.length

def isEmpty (r : Registry) : Bool :=
  r.bindings.isEmpty

def spellings (r : Registry) : List String :=
  r.bindings.map Binding.spelling

def lookup (r : Registry) (t : CType) : Except Fault String :=
  match r.bindings.find? fun b => b.ctype = t with
  | some b => .ok b.odinName
  | none => .error (.notRegistered t.spelling)

/-- The Odin name bound to the type with a given spelling, whatever white space
separates the words of that spelling. -/
def lookupSpelling (r : Registry) (s : String) : Except Fault String :=
  let wanted := CType.normalizeSpelling s
  match r.bindings.find? fun b => b.spelling = wanted with
  | some b => .ok b.odinName
  | none => .error (.notRegistered wanted)

end Registry

end LayoutGuard
