/-!
ASCII letters, digits and names. A name is an identifier as C and Odin spell
it: a letter or an underscore, then letters, digits and underscores.
-/

namespace LayoutGuard.Text

def isLetter (c : Char) : Bool :=
  ('a' ≤ c && c ≤ 'z') || ('A' ≤ c && c ≤ 'Z')

def isDigit (c : Char) : Bool :=
  '0' ≤ c && c ≤ '9'

def isNameStart (c : Char) : Bool :=
  c = '_' || isLetter c

def isNameRest (c : Char) : Bool :=
  isNameStart c || isDigit c

def isName : List Char → Bool
  | [] => false
  | c :: cs => isNameStart c && cs.all isNameRest

end LayoutGuard.Text
