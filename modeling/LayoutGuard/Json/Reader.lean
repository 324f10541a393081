import LayoutGuard.Json.Failure
import LayoutGuard.Text.Quoted
import LayoutGuard.Text.Radix
import LayoutGuard.Text.Reading
import LayoutGuard.Text.Shortest

/-!
Reading JSON values of known shape straight off a text. A reader returns the
value and the rest of the text, or halts with a reason and the place it has
reached. Values that nobody asked for are skipped by their syntax alone.
-/

namespace LayoutGuard.Json

/-- Where reading stopped: the unread text, and how many of its bytes were
already taken. -/
structure Halt where
  reason : Reason
  rest : List Char
  taken : Nat
deriving DecidableEq, Repr

abbrev Reader (α : Type) :=
  List Char → Except Halt (α × List Char)

def stop {α : Type} (reason : Reason) (rest : List Char) : Except Halt α :=
  .error ⟨reason, rest, 0⟩

/-- Halts on the first byte of the rest, if there is one. -/
def stopOn {α : Type} (reason : Reason) (rest : List Char) : Except Halt α :=
  .error ⟨reason, rest, if rest.isEmpty then 0 else 1⟩

def Halt.failure (text : List Char) (h : Halt) : Failure :=
  let bytes (cs : List Char) : List UInt8 := (String.ofList cs).toUTF8.data.toList
  let read := bytes (text.take (text.length - h.rest.length)) ++ (bytes h.rest).take h.taken
  ⟨h.reason, read.count 10 + 1, (read.reverse.takeWhile fun b => b != 10).length⟩

def isSpace (c : Char) : Bool :=
  c = ' ' || c = '\n' || c = '\t' || c = '\r'

def skipSpace (cs : List Char) : List Char :=
  cs.dropWhile isSpace

/-! Words -/

/-- Reads the rest of `null`, `true` or `false`. -/
def readIdent : List Char → List Char → Except Halt (List Char)
  | [], cs => .ok cs
  | _ :: _, [] => stop .eofInValue []
  | w :: ws, c :: cs => if c = w then readIdent ws cs else stopOn .expectedIdent (c :: cs)

/-! Strings -/

def readHex4 (cs : List Char) : Except Halt Nat :=
  if Text.byteLength (cs.take 4) < 4 then stop .eofInString []
  else
    match (cs.take 4).mapM Text.hexValue? with
    | some [a, b, c, d] => .ok (4096 * a + 256 * b + 16 * c + d)
    | _ => .error ⟨.invalidEscape, cs, 4⟩

def isHighSurrogate (n : Nat) : Bool :=
  0xd800 ≤ n && n ≤ 0xdbff

def isLowSurrogate (n : Nat) : Bool :=
  0xdc00 ≤ n && n ≤ 0xdfff

/-- Reads what follows `\u`, with the number of characters it takes. A code
point beyond the basic plane is written as a pair of surrogates. -/
def readUnicode (cs : List Char) : Except Halt (Char × Nat) := do
  let high ← readHex4 cs
  let rest := cs.drop 4
  if isLowSurrogate high then stop .loneSurrogate rest
  else if isHighSurrogate high then
    match rest with
    | [] => stop .eofInString []
    | '\\' :: [] => stop .eofInString []
    | '\\' :: 'u' :: rest =>
      let low ← readHex4 rest
      if isLowSurrogate low then
        return (Char.ofNat (0x10000 + 0x400 * (high - 0xd800) + (low - 0xdc00)), 10)
      else stop .loneSurrogate (rest.drop 4)
    | '\\' :: rest => stopOn .unexpectedHexEnd rest
    | rest => stopOn .unexpectedHexEnd rest
  else return (Char.ofNat high, 4)

/-- Reads what follows a backslash, with the number of characters it takes. -/
def readEscape : List Char → Except Halt (Char × Nat)
  | [] => stop .eofInString []
  | c :: cs =>
    match c with
    | '"' => .ok ('"', 1)
    | '\\' => .ok ('\\', 1)
    | '/' => .ok ('/', 1)
    | 'b' => .ok ('\x08', 1)
    | 'f' => .ok ('\x0c', 1)
    | 'n' => .ok ('\n', 1)
    | 'r' => .ok ('\r', 1)
    | 't' => .ok ('\t', 1)
    | 'u' => (readUnicode cs).map fun r => (r.1, r.2 + 1)
    | _ => stopOn .invalidEscape (c :: cs)

/-- Reads a string after its opening quote. -/
def readString : Reader (List Char)
  | [] => stop .eofInString []
  | c :: cs =>
    if c = '"' then .ok ([], cs)
    else if c = '\\' then do
      let (d, n) ← readEscape cs
      let (s, rest) ← readString (cs.drop n)
      return (d :: s, rest)
    else if c.toNat < 0x20 then stopOn .controlCharacter (c :: cs)
    else do
      let (s, rest) ← readString cs
      return (c :: s, rest)
termination_by cs => cs.length
decreasing_by all_goals simp only [List.length_drop, List.length_cons]; omega

/-- Skips what follows a backslash in a string that nobody asked for. -/
def skipEscape : List Char → Except Halt Nat
  | [] => stop .eofInString []
  | c :: cs =>
    if c = 'u' then (readHex4 cs).map fun _ => 5
    else if ['"', '\\', '/', 'b', 'f', 'n', 'r', 't'].contains c then .ok 1
    else stopOn .invalidEscape (c :: cs)

def skipString : List Char → Except Halt (List Char)
  | [] => stop .eofInString []
  | c :: cs =>
    if c = '"' then .ok cs
    else if c = '\\' then do
      let n ← skipEscape cs
      skipString (cs.drop n)
    else if c.toNat < 0x20 then stop .controlCharacter (c :: cs)
    else skipString cs
termination_by cs => cs.length
decreasing_by all_goals simp only [List.length_drop, List.length_cons]; omega

/-! Numbers -/

/-- A number as it is read: whole numbers that fit a machine word stay whole. -/
inductive Number
  | natural (n : Nat)
  | negative (n : Nat)
  | fraction (x : Float)

def wordMax : Nat :=
  UInt64.size - 1

/-- Appends digits to a significand while it fits a machine word, counting them. -/
def absorb (significand count : Nat) : List Char → Nat × Nat × List Char
  | [] => (significand, count, [])
  | c :: cs =>
    let next := 10 * significand + Text.Decimal.digitValue c
    if Text.isDigit c && next ≤ wordMax then absorb next (count + 1) cs
    else (significand, count, c :: cs)

/-- The number `significand * 10 ^ exponent`, scaled in one step where the power
of ten is a floating point number. -/
def scale (rest : List Char) (negative : Bool) : Nat → Float → Int → Except Halt Number
  | 0, x, _ => .ok (.fraction (if negative then -x else x))
  | fuel + 1, x, e =>
    if e.natAbs ≤ 308 then
      let power := Float.ofScientific 1 false e.natAbs
      let y := if 0 ≤ e then x * power else x / power
      if 0 ≤ e && y.isInf then stop .numberOutOfRange rest
      else .ok (.fraction (if negative then -y else y))
    else if x == 0 then .ok (.fraction (if negative then -x else x))
    else if 0 ≤ e then stop .numberOutOfRange rest
    else scale rest negative fuel (x / Float.ofScientific 1 false 308) (e + 308)

private def scaled (negative : Bool) (significand : Nat) (e : Int) (rest : List Char) :
    Except Halt (Number × List Char) := do
  let x ← scale rest negative 8 (UInt64.ofNat significand).toFloat e
  return (x, rest)

private def dropDigits (cs : List Char) : List Char :=
  cs.dropWhile Text.isDigit

def exponentMax : Nat :=
  0x7fffffff

/-- Appends digits to an exponent; beyond the largest one, the rest after the
digit that went too far. -/
def absorbExponent (e : Nat) : List Char → Except (List Char) (Nat × List Char)
  | [] => .ok (e, [])
  | c :: cs =>
    if Text.isDigit c then
      let next := 10 * e + Text.Decimal.digitValue c
      if next ≤ exponentMax then absorbExponent next cs else .error cs
    else .ok (e, c :: cs)

def readExponent (negative : Bool) (significand : Nat) (start : Int) (cs : List Char) :
    Except Halt (Number × List Char) :=
  let (down, cs) :=
    match cs with
    | '+' :: cs => (false, cs)
    | '-' :: cs => (true, cs)
    | cs => (false, cs)
  match cs with
  | [] => stop .eofInValue []
  | c :: rest =>
    if !Text.isDigit c then stopOn .invalidNumber (c :: rest)
    else
      match absorbExponent (Text.Decimal.digitValue c) rest with
      | .ok (e, rest) => scaled negative significand (if down then start - e else start + e) rest
      | .error rest =>
        if significand != 0 && !down then stop .numberOutOfRange rest
        else .ok (.fraction (if negative then -0.0 else 0.0), dropDigits rest)

private def readScale (negative : Bool) (significand : Nat) (e : Int) :
    List Char → Except Halt (Number × List Char)
  | c :: cs =>
    if c = 'e' || c = 'E' then readExponent negative significand e cs
    else scaled negative significand e (c :: cs)
  | [] => scaled negative significand e []

def readFraction (negative : Bool) (significand : Nat) (start : Nat) (cs : List Char) :
    Except Halt (Number × List Char) :=
  let (significand, count, rest) := absorb significand 0 cs
  if rest.head?.any Text.isDigit then
    readScale negative significand ((start : Int) - count) (dropDigits rest)
  else if count = 0 then
    if rest.isEmpty then stop .eofInValue [] else stopOn .invalidNumber rest
  else readScale negative significand ((start : Int) - count) rest

def readTail (negative : Bool) (significand : Nat) :
    List Char → Except Halt (Number × List Char)
  | '.' :: cs => readFraction negative significand 0 cs
  | cs =>
    if cs.head? = some 'e' || cs.head? = some 'E' then
      readExponent negative significand 0 (cs.drop 1)
    else if !negative then .ok (.natural significand, cs)
    else if 0 < significand && significand ≤ UInt64.size / 2 then .ok (.negative significand, cs)
    else .ok (.fraction (-(UInt64.ofNat significand).toFloat), cs)

def readNumber (negative : Bool) : Reader Number
  | [] => stop .eofInValue []
  | c :: cs =>
    if c = '0' then
      if cs.head?.any Text.isDigit then stopOn .invalidNumber cs else readTail negative 0 cs
    else if Text.isDigit c then
      let (significand, _, rest) := absorb (Text.Decimal.digitValue c) 0 cs
      if rest.head?.any Text.isDigit then
        let exponent := (rest.takeWhile Text.isDigit).length
        match dropDigits rest with
        | '.' :: rest => readFraction negative significand exponent rest
        | rest => readScale negative significand exponent rest
      else readTail negative significand rest
    else stopOn .invalidNumber (c :: cs)

/-- Numbers in messages show a fraction from 0.0001 up to sixteen whole digits
in positional form. -/
def numberLayout : Text.Shortest.Layout :=
  ⟨-4, 15⟩

def Number.found : Number → Found
  | natural n => ⟨"integer `" ++ Text.Decimal.text n ++ "`"⟩
  | negative n => ⟨"integer `-" ++ Text.Decimal.text n ++ "`"⟩
  | fraction x =>
    ⟨"floating point `" ++ String.ofList (Text.Shortest.text numberLayout x) ++ "`"⟩

/-! Values of the wrong type -/

/-- Halts on a value that is not what was expected; scalars are read first. -/
def wrongType {α : Type} (expected : String) (cs : List Char) : Except Halt α := do
  match cs with
  | [] => stop .eofInValue []
  | c :: rest =>
    match c with
    | 'n' => do
      let rest ← readIdent "ull".toList rest
      stop (.invalidType ⟨"null"⟩ expected) rest
    | 't' => do
      let rest ← readIdent "rue".toList rest
      stop (.invalidType ⟨"boolean `true`"⟩ expected) rest
    | 'f' => do
      let rest ← readIdent "alse".toList rest
      stop (.invalidType ⟨"boolean `false`"⟩ expected) rest
    | '"' => do
      let (s, rest) ← readString rest
      let quoted := String.ofList (Text.Quoted.encode s)
      stop (.invalidType ⟨"string " ++ quoted⟩ expected) rest
    | '[' => stop (.invalidType ⟨"sequence"⟩ expected) cs
    | '\x7b' => stop (.invalidType ⟨"map"⟩ expected) cs
    | _ =>
      if c = '-' then do
        let (n, rest) ← readNumber true rest
        stop (.invalidType n.found expected) rest
      else if Text.isDigit c then do
        let (n, rest) ← readNumber false cs
        stop (.invalidType n.found expected) rest
      else stopOn .expectedValue cs

/-! Typed scalars -/

def text : Reader String := fun cs =>
  match skipSpace cs with
  | [] => stop .eofInValue []
  | '"' :: rest => (readString rest).map fun r => (String.ofList r.1, r.2)
  | cs => wrongType "a string" cs

def optionalText : Reader (Option String) := fun cs =>
  match skipSpace cs with
  | 'n' :: rest => (readIdent "ull".toList rest).map fun rest => (none, rest)
  | cs => (text cs).map fun r => (some r.1, r.2)

def toWord : Number × List Char → Except Halt (UInt64 × List Char)
  | (.natural n, rest) => .ok (UInt64.ofNat n, rest)
  | (.negative n, rest) => stop (.invalidValue (Number.negative n).found "u64") rest
  | (.fraction x, rest) => stop (.invalidType (Number.fraction x).found "u64") rest

def word : Reader UInt64 := fun cs =>
  match skipSpace cs with
  | [] => stop .eofInValue []
  | c :: rest =>
    if c = '-' then readNumber true rest >>= toWord
    else if Text.isDigit c then readNumber false (c :: rest) >>= toWord
    else wrongType "u64" (c :: rest)

/-! Skipping -/

private def skipExponent (cs : List Char) : Except Halt (List Char) :=
  let cs := if cs.head? = some '+' || cs.head? = some '-' then cs.drop 1 else cs
  if cs.head?.any Text.isDigit then .ok (dropDigits cs) else stopOn .invalidNumber cs

private def skipFraction (cs : List Char) : Except Halt (List Char) :=
  if !cs.head?.any Text.isDigit then stopOn .invalidNumber cs
  else
    match dropDigits cs with
    | c :: rest => if c = 'e' || c = 'E' then skipExponent rest else .ok (c :: rest)
    | [] => .ok []

def skipNumber (cs : List Char) : Except Halt (List Char) := do
  let rest ←
    match cs with
    | [] => stop .invalidNumber []
    | c :: rest =>
      if c = '0' then
        if rest.head?.any Text.isDigit then stopOn .invalidNumber rest else pure rest
      else if Text.isDigit c then pure (dropDigits rest)
      else stopOn .invalidNumber (c :: rest)
  match rest with
  | '.' :: rest => skipFraction rest
  | c :: rest => if c = 'e' || c = 'E' then skipExponent rest else .ok (c :: rest)
  | [] => .ok []

mutual

def skipValue : Nat → List Char → Except Halt (List Char)
  | 0, cs => stop .eofInValue cs
  | fuel + 1, cs =>
    match skipSpace cs with
    | [] => stop .eofInValue []
    | c :: rest =>
      match c with
      | 'n' => readIdent "ull".toList rest
      | 't' => readIdent "rue".toList rest
      | 'f' => readIdent "alse".toList rest
      | '"' => skipString rest
      | '[' => skipItems fuel false rest
      | '\x7b' => skipFields fuel false rest
      | _ =>
        if c = '-' then skipNumber rest
        else if Text.isDigit c then skipNumber (c :: rest)
        else stopOn .expectedValue (c :: rest)

/-- Skips the items of a list; `later` tells whether one has been read. -/
def skipItems : Nat → Bool → List Char → Except Halt (List Char)
  | 0, _, cs => stop .eofInList cs
  | fuel + 1, later, cs =>
    match skipSpace cs with
    | [] => stop .eofInList []
    | ']' :: rest => .ok rest
    | cs =>
      if !later then do
        let rest ← skipValue fuel cs
        skipItems fuel true rest
      else if cs.head? = some ',' then do
        let rest ← skipValue fuel (cs.drop 1)
        skipItems fuel true rest
      else stopOn .expectedListEnd cs

def skipFields : Nat → Bool → List Char → Except Halt (List Char)
  | 0, _, cs => stop .eofInObject cs
  | fuel + 1, later, cs =>
    match skipSpace cs with
    | [] => stop .eofInObject []
    | '\x7d' :: rest => .ok rest
    | cs =>
      if !later then skipField fuel cs
      else if cs.head? = some ',' then skipField fuel (cs.drop 1)
      else stopOn .expectedObjectEnd cs

def skipField : Nat → List Char → Except Halt (List Char)
  | 0, cs => stop .eofInObject cs
  | fuel + 1, cs =>
    match skipSpace cs with
    | [] => stop .eofInObject []
    | '"' :: rest => do
      let rest ← skipString rest
      match skipSpace rest with
      | [] => stop .eofInObject []
      | ':' :: rest =>
        let rest ← skipValue fuel rest
        skipFields fuel true rest
      | rest => stopOn .expectedColon rest
    | cs => stopOn .keyNotString cs

end

/-! Objects and lists -/

def colon (cs : List Char) : Except Halt (List Char) :=
  match skipSpace cs with
  | [] => stop .eofInObject []
  | ':' :: rest => .ok rest
  | cs => stopOn .expectedColon cs

/-- A field's value that nobody asked for. -/
def ignored (cs : List Char) : Except Halt (List Char) := do
  let rest ← colon cs
  skipValue (rest.length + 1) rest

/-- Goes on to the next key of an object: none at the closing brace. -/
def nextKey (later : Bool) (cs : List Char) : Except Halt (Option (List Char × List Char)) :=
  match skipSpace cs with
  | [] => stop .eofInObject []
  | '\x7d' :: _ => .ok none
  | cs =>
    if !later then
      match cs with
      | '"' :: rest => (readString rest).map some
      | cs => stopOn .keyNotString cs
    else if cs.head? = some ',' then
      match skipSpace (cs.drop 1) with
      | [] => stop .eofInValue []
      | '"' :: rest => (readString rest).map some
      | '\x7d' :: rest => stopOn .trailingComma ('\x7d' :: rest)
      | cs => stopOn .keyNotString cs
    else stopOn .expectedObjectEnd cs

/-- The rest after the closing brace if that comes next, else the rest before
whatever comes next. Faults of an object as a whole are placed there. -/
def afterBrace (cs : List Char) : List Char :=
  match skipSpace cs with
  | '\x7d' :: rest => rest
  | rest => rest

/-- Reads the fields of an object one by one. `field` reads what follows a key
and adds it to what has been collected. -/
def fields {σ : Type} (field : String → σ → Reader σ) : Nat → Bool → σ → Reader σ
  | 0, _, _, cs => stop .eofInObject cs
  | fuel + 1, later, s, cs => do
    match ← nextKey later cs with
    | none => return (s, afterBrace cs)
    | some (key, rest) =>
      let (s, rest) ← field (String.ofList key) s rest
      fields field fuel true s rest

/-- Goes on to the next item of a list: none at the closing bracket. -/
def nextItem (later : Bool) (cs : List Char) : Except Halt (Option (List Char)) :=
  match skipSpace cs with
  | [] => stop .eofInList []
  | ']' :: _ => .ok none
  | cs =>
    if !later then .ok (some cs)
    else if cs.head? = some ',' then
      match skipSpace (cs.drop 1) with
      | [] => stop .eofInValue []
      | ']' :: rest => stopOn .trailingComma (']' :: rest)
      | cs => .ok (some cs)
    else stopOn .expectedListEnd cs

def afterBracket (cs : List Char) : List Char :=
  match skipSpace cs with
  | ']' :: rest => rest
  | rest => rest

/-- Reads all items of a list after its opening bracket. -/
def items {α : Type} (item : Reader α) : Nat → Bool → Reader (List α)
  | 0, _, cs => stop .eofInList cs
  | fuel + 1, later, cs => do
    match ← nextItem later cs with
    | none => return ([], afterBracket cs)
    | some rest =>
      let (a, rest) ← item rest
      let (as, rest) ← items item fuel true rest
      return (a :: as, rest)

def listOf {α : Type} (item : Reader α) : Reader (List α) := fun cs =>
  match skipSpace cs with
  | [] => stop .eofInValue []
  | '[' :: rest => items item (rest.length + 1) false rest
  | cs => wrongType "a sequence" cs

/-- The closing bracket of a list that has all its items. -/
def closeList (cs : List Char) : Except Halt (List Char) :=
  match skipSpace cs with
  | [] => stop .eofInList []
  | ']' :: rest => .ok rest
  | ',' :: rest =>
    match skipSpace rest with
    | ']' :: rest => stopOn .trailingComma (']' :: rest)
    | rest => stopOn .trailingCharacters rest
  | cs => stopOn .trailingCharacters cs

def readAll {α : Type} (value : Reader α) (source : String) : Except Failure α :=
  let cs := source.toList
  let result := do
    let (a, rest) ← value cs
    let rest := skipSpace rest
    if rest.isEmpty then pure a else stopOn .trailingCharacters rest
  result.mapError (Halt.failure cs)

end LayoutGuard.Json
