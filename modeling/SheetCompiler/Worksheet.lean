/-!
# Worksheets

What the compiler needs to know of a worksheet: its name, how far it reaches, the text of each
cell, and which cells belong to a merged range.  Rows and columns count from one.  A cell of a
merged range reads as the range's first cell, and looking a cell up may fail.

`Grid` is the worksheet that holds its rows in memory.  Its rows may have different lengths; a cell
past the end of its row is absent, and the sheet reaches as far as its widest row.
-/

namespace SheetCompiler

/-- Why a cell could not be read. -/
structure CellFault where
  reason : String
  deriving DecidableEq

/-- How far a worksheet reaches: its last row and its last column. -/
structure Extent where
  rows : Nat
  columns : Nat
  deriving DecidableEq

/-- Read access to one worksheet. -/
structure Worksheet where
  name : String
  /-- How far the sheet reaches, where its container says so. -/
  extent : Option Extent
  /-- The text of a cell by row and column, before merged ranges are looked at. -/
  rawCell : Nat → Nat → Except CellFault (Option String)
  /-- The first cell of the merged range around a cell. -/
  anchor : Nat → Nat → Option (Nat × Nat)

namespace Worksheet

/-- The text of a cell, every cell of a merged range reading as its first cell. -/
def cellText (sheet : Worksheet) (row column : Nat) : Except CellFault (Option String) :=
  match sheet.anchor row column with
  | some (firstRow, firstColumn) => sheet.rawCell firstRow firstColumn
  | none => sheet.rawCell row column

end Worksheet

/-- A rectangle of cells that reads as its first cell. -/
structure MergedRange where
  firstRow : Nat
  firstColumn : Nat
  lastRow : Nat
  lastColumn : Nat
  deriving DecidableEq

namespace MergedRange

/-- Whether a cell lies in the rectangle. -/
def contains (range : MergedRange) (row column : Nat) : Bool :=
  range.firstRow ≤ row && row ≤ range.lastRow &&
    (range.firstColumn ≤ column && column ≤ range.lastColumn)

end MergedRange

/-- A worksheet held in memory, row by row. -/
structure Grid where
  name : String
  rows : List (List String) := []
  merged : List MergedRange := []
  deriving DecidableEq

namespace Grid

/-- The length of the widest row. -/
def width (grid : Grid) : Nat := grid.rows.foldl (fun widest row => max widest row.length) 0

/-- All rows, as far as the widest of them. -/
def extent (grid : Grid) : Extent := ⟨grid.rows.length, grid.width⟩

/-- Add a row at the end. -/
def push (grid : Grid) (row : List String) : Grid := { grid with rows := grid.rows ++ [row] }

/-- The text of a cell by itself.  Row and column zero are no cells. -/
def rawCell (grid : Grid) (row column : Nat) : Except CellFault (Option String) :=
  if row = 0 ∨ column = 0 then
    .error ⟨s!"cell ({row}, {column}) is outside the 1-based grid"⟩
  else .ok (grid.rows[row - 1]?.bind fun cells => cells[column - 1]?)

/-- The first cell of the first merged range that holds a cell. -/
def anchor (grid : Grid) (row column : Nat) : Option (Nat × Nat) :=
  (grid.merged.find? fun range => range.contains row column).map fun range =>
    (range.firstRow, range.firstColumn)

/-- The grid as a worksheet.  Cells are looked up in a table of arrays, which is built once. -/
def worksheet (grid : Grid) : Worksheet :=
  let table := (grid.rows.map List.toArray).toArray
  { name := grid.name
    extent := some grid.extent
    rawCell := fun row column =>
      if row = 0 ∨ column = 0 then grid.rawCell row column
      else .ok (table[row - 1]?.bind fun cells => cells[column - 1]?)
    anchor := grid.anchor }

@[simp] theorem worksheet_extent (grid : Grid) :
    grid.worksheet.extent = some grid.extent := rfl

@[simp] theorem worksheet_anchor (grid : Grid) : grid.worksheet.anchor = grid.anchor := rfl

/-- The table holds what the rows hold. -/
@[simp] theorem worksheet_rawCell (grid : Grid) (row column : Nat) :
    grid.worksheet.rawCell row column = grid.rawCell row column := by
  by_cases h : row = 0 ∨ column = 0
  · simp [worksheet, h]
  · simp only [worksheet, rawCell, if_neg h]
    cases hr : grid.rows[row - 1]? <;> simp [hr]

end Grid

end SheetCompiler
