import LayoutGuard.Yaml.Failure

/-!
The tokens of a YAML text. Blocks that are given by indentation have tokens for
their beginning and their end, as if they were bracketed.
-/

namespace LayoutGuard.Yaml

/-- How a scalar is written. -/
inductive Style
  | plain
  | quoted
  | block
deriving DecidableEq, Repr

inductive Lexeme
  | version (major minor : Nat)
  /-- `handle` stands for `expansion` in tags. -/
  | tagHandle (handle expansion : String)
  | documentStart
  | documentEnd
  | blockSequence
  | blockMapping
  | blockEnd
  | flowSequence
  | flowSequenceEnd
  | flowMapping
  | flowMappingEnd
  | blockEntry
  | flowEntry
  | key
  | value
  | reference (name : String)
  | anchor (name : String)
  | tag (handle suffix : String)
  | scalar (text : String) (style : Style)
  | streamEnd
  /-- The text cannot be read on from here. -/
  | invalid (failure : Failure)
deriving DecidableEq, Repr

structure Token where
  lexeme : Lexeme
  mark : Mark
deriving DecidableEq, Repr

end LayoutGuard.Yaml
