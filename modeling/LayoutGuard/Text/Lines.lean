/-!
Lines. A line ends at a line feed, and a carriage return right before that line
feed belongs to the terminator. Text after the last line feed is a line of its
own unless it is empty; a carriage return at its end stays in the line.
-/

namespace LayoutGuard.Text

/-- Drops one carriage return at the end of a line. -/
def dropReturn : List Char → List Char
  | [] => []
  | ['\r'] => []
  | c :: cs => c :: dropReturn cs

/-- The lines of `cs`, where `start` is the part of the current line that has
been read already, last character first. -/
def linesFrom (start : List Char) : List Char → List (List Char)
  | [] => if start.isEmpty then [] else [start.reverse]
  | c :: cs =>
    if c = '\n' then dropReturn start.reverse :: linesFrom [] cs
    else linesFrom (c :: start) cs

def lines (cs : List Char) : List (List Char) :=
  linesFrom [] cs

end LayoutGuard.Text
