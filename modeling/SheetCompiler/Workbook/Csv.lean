import SheetCompiler.Text.Utf8
import SheetCompiler.Worksheet

/-!
# Comma-separated values

A text of comma-separated values is a worksheet with a row for each line.  A field may stand in
quotes; then commas and line breaks in it are text, and a quote is written twice.  Quotes inside a
field that does not begin with one are text, and so is what follows a closing quote up to the next
comma.  A line ends with a line feed, a carriage return or both; lines without anything in them are
passed over.  Rows need not have the same length.

The text is cut into fields byte by byte (`Csv.step`), and then the fields of each row are read as
characters.  The first field that is not well-formed text is a fault, which is reported with the
position where its row began to be read.
-/

namespace SheetCompiler

namespace Csv

open Text (Bytes)

/-! ## Bytes with a meaning -/

/-- The byte between fields. -/
def comma : UInt8 := 0x2c

/-- The byte around quoted fields. -/
def quote : UInt8 := 0x22

/-- The line feed. -/
def lineFeed : UInt8 := 0x0a

/-- The carriage return. -/
def carriageReturn : UInt8 := 0x0d

/-- Whether a byte ends a line. -/
def endsLine (b : UInt8) : Bool := b == lineFeed || b == carriageReturn

/-! ## Cutting a text into rows of fields -/

/-- Where in a text the next byte stands. -/
inductive Place where
  /-- Before a row. -/
  | row
  /-- Before a row, where a line feed still belongs to the carriage return before it. -/
  | rowAfterReturn
  /-- At the start of a field. -/
  | field
  /-- In a field, outside of quotes. -/
  | plain
  /-- Between quotes. -/
  | quoted
  /-- Behind a quote between quotes: it may be the closing one or the first of two. -/
  | quoteInQuoted
  deriving DecidableEq

/-- What has been read of a row. -/
structure Partial where
  place : Place := .row
  /-- The fields that are complete, last one first. -/
  fields : List Bytes := []
  /-- The bytes of the current field, last one first. -/
  current : Bytes := []
  deriving DecidableEq

namespace Partial

/-- Add a byte to the current field. -/
def keep (row : Partial) (place : Place) (b : UInt8) : Partial :=
  { row with place := place, current := b :: row.current }

/-- End the current field at a comma. -/
def endField (row : Partial) : Partial := ⟨.field, row.current.reverse :: row.fields, []⟩

/-- All fields of the row, in order. -/
def cells (row : Partial) : List Bytes := (row.current.reverse :: row.fields).reverse

end Partial

/-- The state at the start of the next row, behind a given byte. -/
def nextRow (b : UInt8) : Partial :=
  { place := if b = carriageReturn then .rowAfterReturn else .row }

/-- A byte that is neither a quote with a meaning nor between quotes. -/
def stepPlain (row : Partial) (b : UInt8) : Partial × Option (List Bytes) :=
  if b = comma then (row.endField, none)
  else if endsLine b then (nextRow b, some row.cells)
  else (row.keep .plain b, none)

/-- Take in one byte: the state behind it, and the row that it ends. -/
def step (row : Partial) (b : UInt8) : Partial × Option (List Bytes) :=
  match row.place with
  | .row | .rowAfterReturn =>
    if endsLine b then ({ row with place := .row }, none)
    else if b = quote then ({ row with place := .quoted }, none)
    else stepPlain row b
  | .field => if b = quote then ({ row with place := .quoted }, none) else stepPlain row b
  | .plain => stepPlain row b
  | .quoted =>
    if b = quote then ({ row with place := .quoteInQuoted }, none)
    else (row.keep .quoted b, none)
  | .quoteInQuoted => if b = quote then (row.keep .quoted b, none) else stepPlain row b

/-- The row that the end of the text ends. -/
def finish (row : Partial) : Option (List Bytes) :=
  match row.place with
  | .row | .rowAfterReturn => none
  | .field | .plain | .quoted | .quoteInQuoted => some row.cells

/-- A position between two bytes: the rows and bytes before it, and its line. -/
structure Position where
  record : Nat := 0
  line : Nat := 1
  byte : Nat := 0
  deriving DecidableEq

/-- The position behind a byte. -/
def Position.after (position : Position) (b : UInt8) : Position :=
  { position with
    line := if b = lineFeed then position.line + 1 else position.line
    byte := position.byte + 1 }

/-- The fields of a row, and where the row began to be read. -/
structure Row where
  start : Position
  cells : List Bytes
  deriving DecidableEq

/-- Cut the rest of a text into rows. -/
def rowsFrom (start here : Position) (row : Partial) : Bytes → List Row
  | [] =>
    match finish row with
    | some cells => [⟨start, cells⟩]
    | none => []
  | b :: rest =>
    let behind := here.after b
    match step row b with
    | (row, none) => rowsFrom start behind row rest
    | (row, some cells) =>
      let next := { behind with record := behind.record + 1 }
      ⟨start, cells⟩ :: rowsFrom next next row rest

/-- The byte order mark, which may open a text. -/
def byteOrderMark : Bytes := [0xef, 0xbb, 0xbf]

/-- Cut a text into rows, without its byte order mark. -/
def rows (bytes : Bytes) : List Row :=
  if byteOrderMark.isPrefixOf bytes then rowsFrom {} ⟨0, 1, 3⟩ {} (bytes.drop 3)
  else rowsFrom {} {} {} bytes

/-! ## Reading the fields -/

/-- A field that is not well-formed text. -/
structure Fault where
  /-- Where the row of the field began to be read. -/
  start : Position
  /-- The number of fields before it. -/
  field : Nat
  /-- The number of well-formed bytes at its front. -/
  index : Nat
  deriving DecidableEq

namespace Fault

/-- What is wrong, and where. -/
def message (fault : Fault) : String :=
  s!"CSV parse error: record {fault.start.record} (line {fault.start.line}, " ++
    s!"field: {fault.field}, byte: {fault.start.byte}): " ++
    s!"invalid utf-8: invalid UTF-8 in field {fault.field} near byte index {fault.index}"

end Fault

/-- Read the fields of a row from a given one on. -/
def readCells (start : Position) : (field : Nat) → List Bytes → Except Fault (List String)
  | _, [] => .ok []
  | field, cell :: rest =>
    match Text.Utf8.decode cell with
    | .error index => .error ⟨start, field, index⟩
    | .ok chars =>
      match readCells start (field + 1) rest with
      | .error fault => .error fault
      | .ok texts => .ok (String.ofList chars :: texts)

/-- Read the fields of rows. -/
def readRows : List Row → Except Fault (List (List String))
  | [] => .ok []
  | row :: rest =>
    match readCells row.start 0 row.cells with
    | .error fault => .error fault
    | .ok cells =>
      match readRows rest with
      | .error fault => .error fault
      | .ok texts => .ok (cells :: texts)

/-- The worksheet of a text. -/
def read (name : String) (bytes : Bytes) : Except Fault Grid :=
  match readRows (rows bytes) with
  | .error fault => .error fault
  | .ok texts => .ok { name := name, rows := texts }

/-! ## Stepping -/

/-- Between quotes everything but a quote is kept. -/
theorem step_quoted {b : UInt8} (h : b ≠ quote) (fields : List Bytes) (current : Bytes) :
    step ⟨.quoted, fields, current⟩ b = (⟨.quoted, fields, b :: current⟩, none) := by
  simp [step, h, Partial.keep]

/-- A quote after a quote between quotes is kept once. -/
theorem step_quoteInQuoted (fields : List Bytes) (current : Bytes) :
    step ⟨.quoteInQuoted, fields, current⟩ quote = (⟨.quoted, fields, quote :: current⟩, none) := by
  simp [step, Partial.keep]

end Csv

end SheetCompiler
