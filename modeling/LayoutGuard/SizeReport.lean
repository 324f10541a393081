import LayoutGuard.Json.Printer
import LayoutGuard.Json.Reader
import LayoutGuard.Log
import LayoutGuard.SizeTable

/-!
Size reports: a record of the sizes of all registry entries, in registry order,
which stands in for a measurement where the types cannot be measured. Reports
are exchanged as JSON texts.
-/

namespace LayoutGuard

structure SizeReport.Entry where
  spelling : String
  odinName : String
  size : UInt64
deriving DecidableEq, Repr

structure SizeReport where
  package : String
  /-- The compiler that measured the sizes. -/
  compiler : Option String
  entries : List SizeReport.Entry
deriving DecidableEq, Repr

namespace SizeReport

def entry (source : SizeSource) (b : Binding) : Except Fault Entry :=
  (source.resolve b).map fun size => ⟨b.spelling, b.odinName, size⟩

/-- Records all entries, or finds the first one without a size. -/
def measure (r : Registry) (source : SizeSource) (package : String)
    (compiler : Option String) : Except Fault SizeReport :=
  (r.bindings.mapM (entry source)).map fun entries => ⟨package, compiler, entries⟩

/-! Sizes of a report -/

def conflict (e : Entry) (earlier : UInt64) : Remark :=
  ⟨.warning, "layout report lists `" ++ e.spelling ++ "` as both " ++
    Text.Decimal.text earlier.toNat ++ " and " ++ Text.Decimal.text e.size.toNat ++ " bytes"⟩

/-- Enters one record, with a remark when the type had another size before. -/
def enter (t : SizeTable) (e : Entry) : SizeTable × List Remark :=
  (t.insertSpelling e.spelling e.size,
    match t.getSpelling? e.spelling with
    | some earlier => if earlier = e.size then [] else [conflict e earlier]
    | none => [])

/-- Enters records in order; later ones win. -/
def enterAll (t : SizeTable) : List Entry → SizeTable × List Remark
  | [] => (t, [])
  | e :: es =>
    let (t, remarks) := enter t e
    let (t, more) := enterAll t es
    (t, remarks ++ more)

def tableWithRemarks (report : SizeReport) : SizeTable × List Remark :=
  enterAll SizeTable.empty report.entries

def table (report : SizeReport) : SizeTable :=
  report.tableWithRemarks.1

/-! Writing -/

def Entry.toValue (e : Entry) : Json.Value :=
  .object [("native", .text e.spelling), ("foreign", .text e.odinName), ("size", .word e.size)]

/-- A report without a compiler has no such field. -/
def toValue (report : SizeReport) : Json.Value :=
  .object ([("package", .text report.package)] ++
    (report.compiler.toList.map fun c => ("compiler", .text c)) ++
    [("entries", .list (report.entries.map Entry.toValue))])

def toJson (report : SizeReport) : String :=
  String.ofList (report.toValue.render 0)

/-! Reading -/

/-- The fields of an object that have been read so far. -/
structure Entry.Partial where
  spelling : Option String
  odinName : Option String
  size : Option UInt64

structure Partial where
  package : Option String
  /-- The outer option tells whether the field was there. -/
  compiler : Option (Option String)
  entries : Option (List Entry)

def once {α : Type} (name : String) (seen : Option α) (value : Json.Reader α) :
    Json.Reader α := fun cs =>
  if seen.isSome then Json.stop (.duplicateField name) (Json.afterBrace cs)
  else Json.colon cs >>= value

def required {α : Type} (name : String) (value : Option α) (rest : List Char) :
    Except Json.Halt α :=
  match value with
  | some a => .ok a
  | none => Json.stop (.missingField name) rest

def Entry.field (key : String) (p : Entry.Partial) : Json.Reader Entry.Partial := fun cs =>
  match key with
  | "native" => (once key p.spelling Json.text cs).map fun r => (⟨r.1, p.odinName, p.size⟩, r.2)
  | "foreign" => (once key p.odinName Json.text cs).map fun r => (⟨p.spelling, r.1, p.size⟩, r.2)
  | "size" => (once key p.size Json.word cs).map fun r => (⟨p.spelling, p.odinName, r.1⟩, r.2)
  | _ => (Json.ignored cs).map fun rest => (p, rest)

/-- Goes on to an item that a list has to have. -/
private def itemOf (name : String) (count : Nat) (cs : List Char) :
    Except Json.Halt (List Char) := do
  match ← Json.nextItem (count != 0) cs with
  | some rest => return rest
  | none =>
    Json.stop (.invalidLength count ("struct " ++ name ++ " with 3 elements"))
      (Json.afterBracket cs)

/-- Reads an entry, written as an object or as a list of its three values. -/
def readEntry : Json.Reader Entry := fun cs => do
  match Json.skipSpace cs with
  | [] => Json.stop .eofInValue []
  | '\x7b' :: rest =>
    let (p, rest) ← Json.fields Entry.field (rest.length + 1) false ⟨none, none, none⟩ rest
    let spelling ← required "native" p.spelling rest
    let odinName ← required "foreign" p.odinName rest
    let size ← required "size" p.size rest
    return (⟨spelling, odinName, size⟩, rest)
  | '[' :: rest =>
    let (spelling, rest) ← itemOf "ReportEntry" 0 rest >>= Json.text
    let (odinName, rest) ← itemOf "ReportEntry" 1 rest >>= Json.text
    let (size, rest) ← itemOf "ReportEntry" 2 rest >>= Json.word
    let rest ← Json.closeList rest
    return (⟨spelling, odinName, size⟩, rest)
  | cs => Json.wrongType "struct ReportEntry" cs

def field (key : String) (p : Partial) : Json.Reader Partial := fun cs =>
  match key with
  | "package" => (once key p.package Json.text cs).map fun r => (⟨r.1, p.compiler, p.entries⟩, r.2)
  | "compiler" =>
    (once key p.compiler Json.optionalText cs).map fun r => (⟨p.package, r.1, p.entries⟩, r.2)
  | "entries" =>
    (once key p.entries (Json.listOf readEntry) cs).map fun r => (⟨p.package, p.compiler, r.1⟩, r.2)
  | _ => (Json.ignored cs).map fun rest => (p, rest)

/-- Reads a report, written as an object or as a list of its three values. The
compiler may be missing from an object. -/
def read : Json.Reader SizeReport := fun cs => do
  match Json.skipSpace cs with
  | [] => Json.stop .eofInValue []
  | '\x7b' :: rest =>
    let (p, rest) ← Json.fields field (rest.length + 1) false ⟨none, none, none⟩ rest
    let package ← required "package" p.package rest
    let entries ← required "entries" p.entries rest
    return (⟨package, p.compiler.getD none, entries⟩, rest)
  | '[' :: rest =>
    let (package, rest) ← itemOf "LayoutReport" 0 rest >>= Json.text
    let (compiler, rest) ←
      match ← Json.nextItem true rest with
      | some rest => Json.optionalText rest
      | none => pure (none, rest)
    let (entries, rest) ← itemOf "LayoutReport" 2 rest >>= Json.listOf readEntry
    let rest ← Json.closeList rest
    return (⟨package, compiler, entries⟩, rest)
  | cs => Json.wrongType "struct LayoutReport" cs

def ofJson (source : String) : Except Fault SizeReport :=
  (Json.readAll read source).mapError .badReport

end SizeReport

end LayoutGuard
