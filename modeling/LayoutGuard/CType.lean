import LayoutGuard.Text.Blank

/-!
Composite types of C and their spellings. A spelling is what `sizeof` takes:
the keyword and the tag of a struct or union, or the bare name of a typedef.
-/

namespace LayoutGuard

/-- How C names a composite type. -/
inductive CType.Kind
  | struct
  | union
  | typedef
deriving DecidableEq, Repr

structure CType where
  kind : CType.Kind
  name : String
deriving DecidableEq, Repr

namespace CType

def spelling (t : CType) : String :=
  match t.kind with
  | .struct => "struct " ++ t.name
  | .union => "union " ++ t.name
  | .typedef => t.name

/-- One form for all spellings that differ only in their white space. -/
def normalizeSpelling (s : String) : String :=
  String.ofList (Text.collapse s.toList)

end CType

end LayoutGuard
