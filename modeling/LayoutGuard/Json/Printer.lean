import LayoutGuard.Text.Decimal
import LayoutGuard.Text.Quoted

/-!
Printing JSON over several lines, with two spaces of indentation per level and
each item or field on a line of its own. Empty lists and objects stay closed.
-/

namespace LayoutGuard.Json

/-- The values that reports are made of. -/
inductive Value
  | text (s : String)
  | word (n : UInt64)
  | list (items : List Value)
  | object (fields : List (String × Value))

/-- Quotes, backslashes and control characters are escaped, all else is kept. -/
def escape (c : Char) : List Char :=
  match c with
  | '"' => ['\\', '"']
  | '\\' => ['\\', '\\']
  | '\x08' => ['\\', 'b']
  | '\x0c' => ['\\', 'f']
  | '\n' => ['\\', 'n']
  | '\r' => ['\\', 'r']
  | '\t' => ['\\', 't']
  | c =>
    if c.toNat < 0x20 then
      ['\\', 'u', '0', '0', Text.Quoted.hexDigit (c.toNat / 16),
        Text.Quoted.hexDigit (c.toNat % 16)]
    else [c]

def quote (s : String) : List Char :=
  '"' :: s.toList.flatMap escape ++ ['"']

def newline (level : Nat) : List Char :=
  '\n' :: List.replicate (2 * level) ' '

mutual

def Value.render (level : Nat) : Value → List Char
  | .text s => quote s
  | .word n => Text.Decimal.render n.toNat
  | .list [] => ['[', ']']
  | .list (v :: vs) =>
    '[' :: newline (level + 1) ++ v.render (level + 1) ++ renderItems (level + 1) vs ++
      newline level ++ [']']
  | .object [] => ['\x7b', '\x7d']
  | .object ((k, v) :: fs) =>
    '\x7b' :: newline (level + 1) ++ quote k ++ [':', ' '] ++ v.render (level + 1) ++
      renderFields (level + 1) fs ++ newline level ++ ['\x7d']

def renderItems (level : Nat) : List Value → List Char
  | [] => []
  | v :: vs => ',' :: newline level ++ v.render level ++ renderItems level vs

def renderFields (level : Nat) : List (String × Value) → List Char
  | [] => []
  | (k, v) :: fs =>
    ',' :: newline level ++ quote k ++ [':', ' '] ++ v.render level ++ renderFields level fs

end

end LayoutGuard.Json
