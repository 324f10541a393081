/-!
Remarks that an operation leaves beside its result.
-/

namespace LayoutGuard

inductive Remark.Level
  | warning
  | error
deriving DecidableEq, Repr

structure Remark where
  level : Remark.Level
  message : String
deriving DecidableEq, Repr

def Remark.Level.text : Remark.Level → String
  | warning => "WARN"
  | error => "ERROR"

end LayoutGuard
