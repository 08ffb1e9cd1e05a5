import SheetCompiler.Header.Column
import SheetCompiler.SheetFault
import SheetCompiler.Worksheet

/-!
# The schema of a worksheet

A worksheet opens with header rows, whose cell in the marker column begins with the marker.  The
rest of that cell is the row's keyword.  Rows with a recognized keyword describe the columns to the
right of it; a row with any other keyword is metadata, and the first filled cell of the first such
row is its value.

`Schema.ofSheet` reads the header rows from the top (`Header.scan`) and then the columns from left
to right (`Schema.build`).  A usable column registers the type of its field path and of every parent
of it (`Schema.register`); a later column with the same path has the last word.
-/

namespace SheetCompiler

/-- What the header block of a worksheet declares. -/
structure Schema where
  /-- The usable columns, from left to right. -/
  columns : List Column := []
  /-- The type tag of every field path and of all its parents. -/
  types : Entries String := []
  /-- The default of every field path that has one. -/
  fallbacks : Entries String := []
  /-- The values of unrecognized keywords. -/
  metadata : Entries String := []
  /-- The number of header rows. -/
  headerRows : Nat := 0
  /-- The last row that is looked at. -/
  rows : Nat := 0
  deriving DecidableEq

namespace Worksheet

/-- The column of the markers. -/
def markerColumn : Nat := 1

/-- The text of a cell, or the fault of reading it. -/
def read (sheet : Worksheet) (row column : Nat) : Except SheetFault (Option String) :=
  match sheet.cellText row column with
  | .ok text => .ok text
  | .error fault => .error (.unreadableCell sheet.name row column fault.reason)

/-- The trimmed text of a cell, unless it is blank. -/
def readFilled (sheet : Worksheet) (row column : Nat) : Except SheetFault (Option String) := do
  return (← sheet.read row column).bind Text.filled?

/-- The first filled cell of a row among some columns from a given one on. -/
def firstFilled (sheet : Worksheet) (row : Nat) :
    (count column : Nat) → Except SheetFault (Option String)
  | 0, _ => .ok none
  | count + 1, column => do
    match ← sheet.readFilled row column with
    | some text => return some text
    | none => sheet.firstFilled row count (column + 1)

end Worksheet

/-- What the header rows say before the columns are read. -/
structure Header where
  /-- The number of header rows. -/
  rows : Nat := 0
  /-- The rows with a recognized keyword, from top to bottom. -/
  keywordRows : List (Nat × String) := []
  /-- The values of all other keywords. -/
  metadata : Entries String := []
  deriving DecidableEq

namespace Header

/-- What follows the marker in a trimmed cell. -/
def keyword? (marker text : String) : Option String :=
  if marker.toList.isPrefixOf text.toList then
    some (Text.trim (String.ofList (text.toList.drop marker.toList.length)))
  else none

/-- Take in one header row with its keyword. -/
def addRow (rules : Rules) (sheet : Worksheet) (columns row : Nat) (keyword : String)
    (header : Header) : Except SheetFault Header := do
  let header := { header with rows := row }
  if keyword.isEmpty then return header
  match rules.recognize? keyword with
  | some folded => return { header with keywordRows := header.keywordRows ++ [(row, folded)] }
  | none =>
    if (Entries.get? keyword header.metadata).isSome then return header
    match ← sheet.firstFilled row (columns - Worksheet.markerColumn)
        (Worksheet.markerColumn + 1) with
    | some value => return { header with metadata := Entries.put keyword value header.metadata }
    | none => return header

/-- Read header rows from a given row on, as long as they are marked. -/
def scan (rules : Rules) (sheet : Worksheet) (columns : Nat) :
    (count row : Nat) → Header → Except SheetFault Header
  | 0, _, header => .ok header
  | count + 1, row, header => do
    match (← sheet.readFilled row Worksheet.markerColumn).bind
        (keyword? rules.settings.marker) with
    | none => return header
    | some keyword =>
      scan rules sheet columns count (row + 1) (← addRow rules sheet columns row keyword header)

/-- Whether some row has this keyword. -/
def has (header : Header) (keyword : String) : Bool :=
  header.keywordRows.any fun entry => entry.2 == keyword

/-- What the header rows say about one column. -/
def column (header : Header) (sheet : Worksheet) (index : Nat) : Except SheetFault Column :=
  header.keywordRows.foldlM (fun column entry => do
    match ← sheet.readFilled entry.1 index with
    | some text => return column.push entry.2 text
    | none => return column) { index := index }

end Header

namespace Schema

/-- The first row below the header. -/
def dataStart (schema : Schema) : Nat := schema.headerRows + 1

/-- Add a usable column: the type of its path and of all parents, and its default. -/
def register (schema : Schema) (column : Column) : Schema :=
  let paths := FieldPath.ancestry "" column.segments
  { schema with
    columns := schema.columns ++ [column]
    types := (paths.zip column.types).foldl
      (fun types entry => Entries.put entry.1 entry.2 types) schema.types
    fallbacks := match paths.getLast?, column.fallback with
      | some path, some text => Entries.put path text schema.fallbacks
      | _, _ => schema.fallbacks }

/-- Read one column of the header and add it if it can be used. -/
def addColumn (rules : Rules) (sheet : Worksheet) (header : Header) (schema : Schema)
    (index : Nat) : Except SheetFault Schema := do
  let column ← header.column sheet index
  return if rules.usable column then schema.register column else schema

/-- The schema of a header block, from its rows and columns. -/
def build (rules : Rules) (sheet : Worksheet) (header : Header) (rows columns : Nat) :
    Except SheetFault Schema := do
  if header.rows = 0 then throw (.noSchema sheet.name .noHeaderRows)
  if !(header.has Keyword.field && header.has Keyword.type) then
    throw (.noSchema sheet.name .noFieldRows)
  let start : Schema := { metadata := header.metadata, headerRows := header.rows, rows := rows }
  (List.range' (Worksheet.markerColumn + 1) (columns - Worksheet.markerColumn)).foldlM
    (addColumn rules sheet header) start

/-- The schema that a worksheet declares. -/
def ofSheet (rules : Rules) (sheet : Worksheet) : Except SheetFault Schema := do
  match sheet.extent with
  | none => throw (.noExtent sheet.name)
  | some extent =>
    let rows := min extent.rows rules.settings.maxRows
    let columns := min extent.columns rules.settings.maxColumns
    let header ← Header.scan rules sheet columns rows 1 {}
    build rules sheet header rows columns

end Schema

end SheetCompiler
