import Std.Data.ExtHashMap
import LayoutGuard.Registry

/-!
Measured sizes. A size source answers for C types; resolving a binding asks it
for the binding's type and refuses unknown and empty types. A size table is a
source that was filled with measurements, keyed by spelling.
-/

namespace LayoutGuard

/-- The size in bytes of a C type, tail padding included, where it is known. -/
abbrev SizeSource :=
  CType → Option UInt64

/-- The size of a registered type, which has to be known and not zero. -/
def SizeSource.resolve (source : SizeSource) (b : Binding) : Except Fault UInt64 :=
  match source b.ctype with
  | none => .error (.unresolvable b.spelling b.odinName .undefined)
  | some size =>
    if size = 0 then .error (.unresolvable b.spelling b.odinName .empty) else .ok size

/-- Sizes by C spelling. -/
structure SizeTable where
  sizes : Std.ExtHashMap String UInt64

namespace SizeTable

def empty : SizeTable :=
  ⟨∅⟩

/-- The size stored under exactly this key. -/
def find? (t : SizeTable) (key : String) : Option UInt64 :=
  t.sizes[key]?

/-- Stores a size under exactly this key. -/
def put (t : SizeTable) (key : String) (size : UInt64) : SizeTable :=
  ⟨t.sizes.insert key size⟩

def insert (t : SizeTable) (c : CType) (size : UInt64) : SizeTable :=
  t.put c.spelling size

/-- Stores a size under a spelling, whatever white space it is written with. -/
def insertSpelling (t : SizeTable) (spelling : String) (size : UInt64) : SizeTable :=
  t.put (CType.normalizeSpelling spelling) size

def sizeOf? (t : SizeTable) (c : CType) : Option UInt64 :=
  t.find? c.spelling

/-- The size stored for a spelling, whatever white space it is written with. -/
def getSpelling? (t : SizeTable) (spelling : String) : Option UInt64 :=
  t.find? (CType.normalizeSpelling spelling)

def size (t : SizeTable) : Nat :=
  t.sizes.size

def isEmpty (t : SizeTable) : Bool :=
  t.sizes.isEmpty

def source (t : SizeTable) : SizeSource :=
  t.sizeOf?

/-- Inserts spellings with their sizes in order, so that later ones win. -/
def ofSpellings (pairs : List (String × UInt64)) : SizeTable :=
  pairs.foldl (fun t p => t.insertSpelling p.1 p.2) empty

end SizeTable

end LayoutGuard
