import SheetCompiler.Json.Decode
import SheetCompiler.Json.Layout
import SheetCompiler.Worksheet

/-!
# Workbooks in JSON

A workbook in JSON lists its sheets, and each sheet has a name, rows of cells and merged ranges.  A
cell may be any JSON value: a string is the text of the cell, `null` is a blank cell, and any other
value stands for its own text without white space.
-/

namespace SheetCompiler

namespace JsonBook

open Json (Decoder Field Flaw)

/-- The text of a cell. -/
def cellText : Json → String
  | .null => ""
  | .string text => text
  | other => other.compact

/-- A merged range, by its four bounds. -/
def mergedRange : Decoder MergedRange :=
  Json.structured [
    Field.of "first_row" true Json.natural fun n range => { range with firstRow := n },
    Field.of "first_col" true Json.natural fun n range => { range with firstColumn := n },
    Field.of "last_row" true Json.natural fun n range => { range with lastRow := n },
    Field.of "last_col" true Json.natural fun n range => { range with lastColumn := n }]
    ⟨0, 0, 0, 0⟩

/-- A sheet: its name, and perhaps its rows and merged ranges. -/
def sheet : Decoder Grid :=
  Json.structured [
    Field.of "name" true Json.text fun name grid => { grid with name := name },
    Field.of "rows" false (Json.list (Json.list Json.tree)) fun rows grid =>
      { grid with rows := rows.map fun row => row.map cellText },
    Field.of "merged" false (Json.list mergedRange) fun merged grid =>
      { grid with merged := merged }]
    { name := "" }

/-- A workbook: perhaps its sheets. -/
def workbook : Decoder (List Grid) :=
  Json.structured [Field.of "sheets" false (Json.list sheet) fun sheets _ => sheets] []

/-- Read the sheets of a workbook. -/
def read (bytes : Text.Bytes) : Except Flaw (List Grid) := Json.decode workbook bytes

end JsonBook

end SheetCompiler
