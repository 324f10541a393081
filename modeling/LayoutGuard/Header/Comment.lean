import LayoutGuard.Text.Reading

/-!
Comments of C. A block comment becomes a single space and a line comment goes
up to the end of its line. The blocks are taken out first, each from the first
opener to the nearest closer; an opener without a closer is no comment.
-/

namespace LayoutGuard.Header

def afterClose : List Char → Option (List Char)
  | [] => none
  | '*' :: '/' :: cs => some cs
  | _ :: cs => afterClose cs

theorem afterClose_length {cs rest : List Char} (h : afterClose cs = some rest) :
    rest.length < cs.length := by
  fun_induction afterClose cs with
  | case1 => simp at h
  | case2 cs =>
    simp only [Option.some.injEq] at h
    simp only [h, List.length_cons]
    omega
  | case3 c cs _ ih =>
    have := ih h
    simp only [List.length_cons]
    omega

def stripBlocks : List Char → List Char
  | [] => []
  | '/' :: '*' :: cs =>
    match _h : afterClose cs with
    | some rest => ' ' :: stripBlocks rest
    | none => '/' :: '*' :: cs
  | c :: cs => c :: stripBlocks cs
termination_by cs => cs.length
decreasing_by
  · have := afterClose_length _h
    simp only [List.length_cons]
    omega
  · simp

/-- Removes line comments; `inside` tells whether one is being read. -/
def stripLinesFrom (inside : Bool) : List Char → List Char
  | [] => []
  | c :: cs =>
    if inside then
      if c = '\n' then c :: stripLinesFrom false cs else stripLinesFrom true cs
    else if c = '/' && cs.head? = some '/' then stripLinesFrom true cs
    else c :: stripLinesFrom false cs

def stripComments (cs : List Char) : List Char :=
  stripLinesFrom false (stripBlocks cs)

end LayoutGuard.Header
