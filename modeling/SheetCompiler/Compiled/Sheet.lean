import SheetCompiler.Record.Continuation
import SheetCompiler.Record.Row

/-!
# Compiled worksheets

A worksheet is compiled row by row below its header.  A row without anything in it is skipped; a row
that continues the last record grows it; any other row starts a record of its own, with defaults.

`CompiledSheet.toValue` is the form in which a compiled sheet is written: its name, its types and its
records under the three reserved names, and then whatever metadata does not use one of these.
-/

namespace SheetCompiler

/-- What a worksheet compiles to. -/
structure CompiledSheet where
  name : String
  /-- The type tag of every field path. -/
  types : Entries String
  records : List Record
  metadata : Entries String
  deriving DecidableEq

namespace CompiledSheet

/-! ## Rows -/

/-- The finished record, or the fault of its untyped field. -/
def settle (sheet : Worksheet) (row : Nat) (progress : Progress Record) :
    Except SheetFault Record :=
  match progress with
  | .done record => .ok record
  | .stopped path _ => .error (.untypedField sheet.name row path)

/-- The record that a row starts. -/
def startRecord (layout : Layout) (sheet : Worksheet) (row : Nat) (raw : Record) :
    Except SheetFault Record :=
  settle sheet row (Record.shape layout "" (Record.fill layout "" raw))

/-- Take in the record of a row as it was read; the records are kept newest first. -/
def addRaw (layout : Layout) (sheet : Worksheet) (records : List Record) (row : Nat)
    (raw : Record) : Except SheetFault (List Record) := do
  let candidate ← settle sheet row (Record.shape layout "" raw)
  if Value.fieldsEmpty candidate then return records
  match records with
  | [] => return [← startRecord layout sheet row raw]
  | previous :: earlier =>
    match Record.merge? layout previous candidate raw with
    | some merged => return Record.prune (← settle sheet row merged) :: earlier
    | none => return (← startRecord layout sheet row raw) :: records

/-- Take in one row of the worksheet. -/
def addRow (layout : Layout) (sheet : Worksheet) (records : List Record) (row : Nat) :
    Except SheetFault (List Record) := do
  addRaw layout sheet records row (← Record.ofRow sheet layout.schema.columns row)

/-- The rows below the header. -/
def dataRows (schema : Schema) : List Nat :=
  List.range' schema.dataStart (schema.rows - schema.headerRows)

/-- Compile a worksheet. -/
def ofWorksheet (rules : Rules) (sheet : Worksheet) : Except SheetFault CompiledSheet := do
  let schema ← Schema.ofSheet rules sheet
  let layout : Layout := ⟨schema, rules.settings⟩
  let records ← (dataRows schema).foldlM (addRow layout sheet) []
  return ⟨sheet.name, schema.types, records.reverse, schema.metadata⟩

/-! ## Output -/

/-- The name of the sheet's own name in the output. -/
def sheetKey : String := "sheet"

/-- The name of the types in the output. -/
def typesKey : String := "types"

/-- The name of the records in the output. -/
def recordsKey : String := "records"

/-- Names that metadata cannot use. -/
def reservedKeys : List String := [sheetKey, typesKey, recordsKey]

/-- Texts by name, as a record. -/
def textRecord (entries : Entries String) : Record :=
  entries.map fun entry => (entry.1, .scalar entry.2)

/-- What is written for a compiled sheet, in order. -/
def outputPairs (sheet : CompiledSheet) : List (String × Value) :=
  [(sheetKey, .scalar sheet.name), (typesKey, .record (textRecord sheet.types)),
    (recordsKey, .list (sheet.records.map .record))] ++
      textRecord (Entries.without reservedKeys sheet.metadata)

/-- The output of a compiled sheet. -/
def toValue (sheet : CompiledSheet) : Value := .record (Entries.ofPairs sheet.outputPairs)

@[simp] theorem settle_done (sheet : Worksheet) (row : Nat) (record : Record) :
    settle sheet row (.done record) = .ok record := rfl

@[simp] theorem settle_stopped (sheet : Worksheet) (row : Nat) (path : String)
    (record : Record) :
    settle sheet row (.stopped path record) = .error (.untypedField sheet.name row path) := rfl

end CompiledSheet

end SheetCompiler
