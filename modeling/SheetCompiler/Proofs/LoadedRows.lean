import SheetCompiler.Compiled.Sheet
import SheetCompiler.Proofs.CsvText
import SheetCompiler.Proofs.DecodedText
import SheetCompiler.Workbook.JsonBook

/-!
# Rows from files

Rows of cells can be written as comma-separated values or as a workbook in JSON.  `JsonBook.document`
writes sheets without merged ranges, each cell as a text, and they are read back as they were
(`JsonBook.read_document`).  With `Csv.read_write` both files hold the same sheet, whatever its cells
are and however long its rows are, as long as no row is empty (`Grid.read_eq`): an empty row of a
workbook in JSON is a row, but a line without anything in it is none.
-/

namespace SheetCompiler

namespace JsonBook

open Json (Reads ReadsMember chars)

/-- Rows of cells, each cell a text. -/
def rowsJson (rows : List (List String)) : Json :=
  .array (rows.map fun row => .array (row.map .string))

/-- A sheet without merged ranges. -/
def sheetJson (name : String) (rows : List (List String)) : Json :=
  .object [("name", .string name), ("rows", rowsJson rows)]

/-- A workbook of sheets without merged ranges. -/
def document (sheets : List (String × List (List String))) : Json :=
  .object [("sheets", .array (sheets.map fun sheet => sheetJson sheet.1 sheet.2))]

theorem reads_rowsJson (room : Nat) (rows : List (List String)) :
    Reads (Json.list (Json.list Json.tree) (room + 2)) (chars (rowsJson rows))
      (rows.map fun row => row.map .string) := by
  refine Json.reads_list (List.forall₂_map_left_iff.mpr (List.forall₂_map_right_iff.mpr ?_))
  refine List.forall₂_same.mpr fun row _ => Json.reads_list ?_
  exact List.forall₂_same.mpr fun cell hcell => by
    obtain ⟨text, -, rfl⟩ := List.mem_map.mp hcell
    exact Json.reads_tree room text

theorem map_cellText_string (rows : List (List String)) :
    (rows.map fun row => row.map Json.string).map (fun row => row.map cellText) = rows := by
  have hrow : ∀ row : List String, (row.map Json.string).map cellText = row := fun row => by
    rw [List.map_map]
    exact List.map_id row
  rw [List.map_map]
  exact (List.map_congr_left fun row _ => hrow row).trans (List.map_id rows)

theorem reads_sheetJson (room : Nat) (name : String) (rows : List (List String)) :
    Reads (sheet (room + 3)) (chars (sheetJson name rows)) ⟨name, rows, []⟩ := by
  have hname := (Json.reads_text (room + 2) name).field "name" true
    fun name (grid : Grid) => { grid with name := name }
  have hrows := (reads_rowsJson room rows).field "rows" false
    fun rows (grid : Grid) => { grid with rows := rows.map fun row => row.map cellText }
  have hnames : ["name", "rows"].Nodup := by decide
  have hread : Reads (sheet (room + 3)) (chars (sheetJson name rows)) ⟨name, _, []⟩ :=
    @Json.reads_structured Grid _ _ (room + 2) [("name", .string name), ("rows", rowsJson rows)]
      [_, _] (.cons ⟨_, rfl, hname⟩ (.cons ⟨_, rfl, hrows⟩ .nil)) hnames rfl
  rwa [map_cellText_string] at hread

/-- Sheets are read back as they were written. -/
theorem read_document (sheets : List (String × List (List String))) :
    read (Text.Utf8.ofString (document sheets).compact) =
      .ok (sheets.map fun sheet => ⟨sheet.1, sheet.2, []⟩) := by
  have hsheets : Reads (Json.list sheet 126)
      (chars (.array (sheets.map fun sheet => sheetJson sheet.1 sheet.2)))
      (sheets.map fun sheet => ⟨sheet.1, sheet.2, []⟩) :=
    Json.reads_list (List.forall₂_map_left_iff.mpr (List.forall₂_map_right_iff.mpr
      (List.forall₂_same.mpr fun sheet _ => reads_sheetJson 122 sheet.1 sheet.2)))
  have hfield := hsheets.field "sheets" false fun sheets (_ : List Grid) => sheets
  rw [read, Json.compact, Text.Utf8.ofString, String.toList_ofList]
  refine Json.Reads.decode ?_
  exact @Json.reads_structured (List Grid) _ _ 126 [("sheets", _)] [_]
    (.cons ⟨_, rfl, hfield⟩ .nil) (List.pairwise_singleton _ _) rfl

end JsonBook

namespace Grid

/-- Rows as a file of comma-separated values. -/
def csvBytes (lineEnd : Csv.LineEnd) (rows : List (List String)) : Text.Bytes :=
  Text.Utf8.encode (Csv.write lineEnd rows)

/-- Rows as a file with a workbook in JSON. -/
def jsonBytes (name : String) (rows : List (List String)) : Text.Bytes :=
  Text.Utf8.ofString (JsonBook.document [(name, rows)]).compact

/-- Rows that are not empty are read back from both files as the sheet with exactly these rows, and so
the sheets of both compile to the same. -/
theorem read_written (name : String) (lineEnd : Csv.LineEnd) {rows : List (List String)}
    (h : ∀ row ∈ rows, row ≠ []) :
    Csv.read name (csvBytes lineEnd rows) = .ok ⟨name, rows, []⟩ ∧
      JsonBook.read (jsonBytes name rows) = .ok [⟨name, rows, []⟩] ∧
      ∀ (rules : Rules) (grid : Grid) (grids : List Grid),
        Csv.read name (csvBytes lineEnd rows) = .ok grid →
        JsonBook.read (jsonBytes name rows) = .ok grids →
        grids.map (fun other => CompiledSheet.ofWorksheet rules other.worksheet) =
          [CompiledSheet.ofWorksheet rules grid.worksheet] := by
  have hcsv : Csv.read name (csvBytes lineEnd rows) = .ok ⟨name, rows, []⟩ :=
    Csv.read_write name lineEnd h
  have hjson : JsonBook.read (jsonBytes name rows) = .ok [⟨name, rows, []⟩] :=
    JsonBook.read_document [(name, rows)]
  refine ⟨hcsv, hjson, fun rules grid grids hgrid hgrids => ?_⟩
  obtain rfl := Except.ok.inj (hcsv.symm.trans hgrid)
  obtain rfl := Except.ok.inj (hjson.symm.trans hgrids)
  rfl

/-- Cells with everything in them that means something to one of the formats. -/
def fragments : List (List String) :=
  [["#var", "a,b", "\"c\""], ["", "d\r\ne", " ", "\\\"\t"], ["\ufeff€😀"], [""], ["#", "\x01,\""]]

theorem read_fragments :
    Csv.read "f" (csvBytes .both fragments) = .ok ⟨"f", fragments, []⟩ ∧
      JsonBook.read (jsonBytes "f" fragments) = .ok [⟨"f", fragments, []⟩] :=
  have h := read_written "f" .both (show ∀ row ∈ fragments, row ≠ [] by decide)
  ⟨h.1, h.2.1⟩

end Grid

end SheetCompiler
