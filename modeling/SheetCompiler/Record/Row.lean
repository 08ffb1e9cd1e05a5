import SheetCompiler.Header.Schema

/-!
# Records of worksheet rows

A row of a worksheet becomes a record by placing the cell of every usable column at the column's
field path.  A blank cell is placed as nothing at all, so that each row mentions every field; any
other cell keeps its text as it is.

Two columns may name the same field, and then the later cell stays.  A field cannot hold a cell and
further fields at once: placing a cell where there are fields, or a field where there is a cell, is
a conflict.
-/

namespace SheetCompiler

namespace Record

/-- Place a value at the end of a list of names, making the records on the way. -/
def place (value : Value) : (names : List String) → Record → Option Record
  | [], _ => none
  | [name], record =>
    match Entries.get? name record with
    | some (.record _) => none
    | _ => some (Entries.put name value record)
  | name :: next :: rest, record =>
    match Entries.get? name record with
    | none =>
      (place value (next :: rest) []).map fun inner => Entries.put name (.record inner) record
    | some (.record fields) =>
      (place value (next :: rest) fields).map fun inner => Entries.put name (.record inner) record
    | some _ => none

/-- The value of a cell: a blank cell holds nothing. -/
def ofCell (text : Option String) : Value :=
  match text with
  | some text => if Text.isBlankText text then .null else .scalar text
  | none => .null

/-- Place the cell of one column. -/
def addCell (sheet : Worksheet) (row : Nat) (record : Record) (column : Column) :
    Except SheetFault Record := do
  if column.segments.isEmpty then throw (.emptyFieldPath sheet.name row column.index)
  let text ← sheet.read row column.index
  match place (ofCell text) column.segments record with
  | some record => return record
  | none => throw (.pathConflict sheet.name row column.index column.path)

/-- The record of a row, column by column. -/
def ofRow (sheet : Worksheet) (columns : List Column) (row : Nat) : Except SheetFault Record :=
  columns.foldlM (addCell sheet row) []

@[simp] theorem ofCell_none : ofCell none = .null := rfl

theorem ofCell_some (text : String) :
    ofCell (some text) = if Text.isBlankText text then .null else .scalar text := rfl

@[simp] theorem ofRow_nil (sheet : Worksheet) (row : Nat) : ofRow sheet [] row = .ok [] := rfl

theorem ofRow_append (sheet : Worksheet) (front back : List Column) (row : Nat) :
    ofRow sheet (front ++ back) row =
      (ofRow sheet front row).bind fun record => back.foldlM (addCell sheet row) record := by
  simp [ofRow, List.foldlM_append, bind]

end Record

end SheetCompiler
