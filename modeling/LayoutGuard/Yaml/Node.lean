import LayoutGuard.Yaml.Token

/-!
The first document of a YAML text as a tree. Where the text stops making sense
the tree holds the reason, so that whoever reads the tree in order meets the
fault no earlier than the values in front of it.
-/

namespace LayoutGuard.Yaml

structure Scalar where
  text : String
  style : Style
  tag : Option String
deriving DecidableEq, Repr

namespace Scalar

def plain (text : String) : Scalar :=
  ⟨text, .plain, none⟩

def isBlank (s : Scalar) : Bool :=
  s.text.toList.isEmpty && s.style = .plain

end Scalar

inductive Node
  | scalar (s : Scalar) (mark : Mark)
  | sequence (items : List Node) (mark : Mark)
  | mapping (entries : List (Node × Node)) (mark : Mark)
  /-- The same as the node that was given this number. -/
  | reference (anchor : Nat) (mark : Mark)
  /-- The text cannot be read on from here. -/
  | broken (failure : Failure)
  /-- A text without any document. -/
  | void
deriving Repr

structure Document where
  root : Node
  /-- The nodes that aliases can refer to, by number. -/
  anchored : List (Nat × Node)
  /-- A fault behind the root. -/
  failure : Option Failure
  /-- Whether anything follows the document. -/
  more : Bool

namespace Document

/-- A document that is a tree and nothing else. -/
def ofRoot (root : Node) : Document :=
  ⟨root, [], none, false⟩

/-- The node itself, or the one that an alias refers to. -/
def resolve (d : Document) : Node → Node
  | .reference anchor mark => (d.anchored.lookup anchor).getD (.broken (.unknownAnchor mark))
  | n => n

end Document

end LayoutGuard.Yaml
