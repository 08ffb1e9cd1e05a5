import Mathlib.Data.List.DropRight
import SheetCompiler.Proofs.DecodedImages
import SheetCompiler.Proofs.DecodedParts
import SheetCompiler.Proofs.Numerals
import SheetCompiler.Workbook.JsonBook

/-!
# Integers in the cells of a JSON workbook

A sheet can be decoded with every cell as it stands in the text (`JsonBook.sources`).  The grids that
are read from a workbook are those sheets with the text of each cell (`JsonBook.read_eq`), and what is
held of a cell is a part of the text (`JsonBook.partOf_of_sources`), so a cell of a grid can be compared
with what is written for it.

For a cell that is written as an integer, the text is what is written exactly when the integer fits into
64 bits (`JsonBook.integer_cells_keep_digits`).  Zero behind a minus sign and integers of more than 64
bits become floating-point numbers.
-/

namespace SheetCompiler

namespace JsonBook

open Json (Decoder Field Flaw Gives IntegerLiteral image)
open Text (Bytes)
open Text.Utf8 (encode)

/-! ## Cells as they stand in a text -/

/-- A cell as it stands in a text: its bytes, and the value that is read from them. -/
structure SourceCell where
  source : Bytes
  value : Json
  /-- The value is read from the bytes, and from nothing behind them. -/
  read : ∃ room rest, Json.tree room (source ++ rest) = .ok (value, rest)

namespace SourceCell

/-- The bytes from where a value begins to where it ends. -/
def between (bytes rest : Bytes) : Bytes :=
  (Json.skipSpace bytes).take ((Json.skipSpace bytes).length - rest.length)

theorem between_append {bytes rest : Bytes} (h : rest <:+ Json.skipSpace bytes) :
    between bytes rest ++ rest = Json.skipSpace bytes :=
  List.suffix_iff_eq_append.mp h

/-- Space in front of a value is not looked at. -/
theorem tree_skipSpace (room : Nat) (bytes : Bytes) :
    Json.tree room (Json.skipSpace bytes) = Json.tree room bytes := by
  have hspace : Json.skipSpace (Json.skipSpace bytes) = Json.skipSpace bytes :=
    List.dropWhile_idempotent _ _
  obtain ⟨inner, hinner⟩ := Json.exists_tree_eq room
  rw [hinner, Json.value, Json.value, hspace]

theorem read_between {room : Nat} {bytes rest : Bytes} {value : Json}
    (h : Json.tree room bytes = .ok (value, rest)) :
    Json.tree room (between bytes rest ++ rest) = .ok (value, rest) := by
  rw [between_append (Json.tree_suffix h), tree_skipSpace, h]

/-- Read a cell of any form, with its bytes. -/
def decoder : Decoder SourceCell := fun room bytes =>
  match h : Json.tree room bytes with
  | .ok (value, rest) => .ok (⟨between bytes rest, value, room, rest, read_between h⟩, rest)
  | .error flaw => .error flaw

theorem tree_eq (room : Nat) (bytes : Bytes) :
    Json.tree room bytes = image value (decoder room bytes) := by
  rw [decoder]
  split
  · assumption
  · assumption

/-- The text of the cell. -/
def text (cell : SourceCell) : String := cellText cell.value

end SourceCell

/-- A sheet with its cells as they stand in a text. -/
structure SourceSheet where
  name : String
  rows : List (List SourceCell) := []
  merged : List MergedRange := []

namespace SourceSheet

/-- The sheet with the texts of its cells. -/
def grid (sheet : SourceSheet) : Grid where
  name := sheet.name
  rows := sheet.rows.map fun row => row.map SourceCell.text
  merged := sheet.merged

end SourceSheet

/-- Read a sheet with its cells. -/
def sourceSheet : Decoder SourceSheet :=
  Json.structured [
    Field.of "name" true Json.text fun name sheet => { sheet with name := name },
    Field.of "rows" false (Json.list (Json.list SourceCell.decoder)) fun rows sheet =>
      { sheet with rows := rows },
    Field.of "merged" false (Json.list mergedRange) fun merged sheet =>
      { sheet with merged := merged }]
    { name := "" }

/-- Read a workbook with its cells. -/
def sourceBook : Decoder (List SourceSheet) :=
  Json.structured [Field.of "sheets" false (Json.list sourceSheet) fun sheets _ => sheets] []

/-- Read the sheets of a workbook with their cells. -/
def sources (bytes : Bytes) : Except Flaw (List SourceSheet) := Json.decode sourceBook bytes

theorem map_cellText (rows : List (List SourceCell)) :
    ((rows.map (List.map SourceCell.value)).map fun row => row.map cellText) =
      rows.map fun row => row.map SourceCell.text := by
  rw [List.map_map]
  exact List.map_congr_left fun row _ => List.map_map

theorem sheet_eq (room : Nat) (bytes : Bytes) :
    sheet room bytes = image SourceSheet.grid (sourceSheet room bytes) := by
  have hcells := Json.list_image (Json.list_image SourceCell.tree_eq)
  refine Json.structured_image (g := SourceSheet.grid) ?_ { name := "" } room bytes
  refine .cons ?_ (.cons ?_ (.cons ?_ .nil))
  · exact Field.follows_same (by intros; rfl) "name" true
  · refine Field.follows_of hcells (fun rows sheet => ?_) "rows" false
    rw [map_cellText]
    rfl
  · exact Field.follows_same (by intros; rfl) "merged" false

theorem workbook_eq (room : Nat) (bytes : Bytes) :
    workbook room bytes = image (List.map SourceSheet.grid) (sourceBook room bytes) := by
  refine Json.structured_image (g := List.map SourceSheet.grid) (.cons ?_ .nil) [] room bytes
  exact Field.follows_of (Json.list_image sheet_eq) (fun _ _ => rfl) "sheets" false

/-- The grids of a workbook are its sheets with the texts of their cells. -/
theorem read_eq (bytes : Bytes) :
    read bytes = (sources bytes).map (List.map SourceSheet.grid) :=
  Json.decode_image workbook_eq bytes

/-! ## Parts of the text -/

theorem SourceCell.between_infix (bytes rest : Bytes) : SourceCell.between bytes rest <:+: bytes :=
  (List.take_prefix _ _).isInfix.trans (Json.skipSpace_suffix bytes).isInfix

theorem SourceCell.gives_decoder (whole : Bytes) (room : Nat) :
    Gives whole (fun cell => cell.source <:+: whole) (SourceCell.decoder room) := by
  intro bytes cell rest hbytes h
  rw [SourceCell.decoder] at h
  split at h
  · rename_i hread
    obtain ⟨rfl, rfl⟩ := Prod.mk.inj (Except.ok.inj h)
    exact ⟨(SourceCell.between_infix bytes _).trans hbytes.isInfix,
      ((Json.tree_suffix hread).trans (Json.skipSpace_suffix bytes)).trans hbytes⟩
  · cases h

theorem gives_mergedRange (whole : Bytes) (room : Nat) :
    Gives whole (fun _ => True) (mergedRange room) := by
  refine Json.gives_structured (fun field hfield => ?_) trivial room
  simp only [List.mem_cons, List.not_mem_nil, or_false] at hfield
  obtain rfl | rfl | rfl | rfl := hfield <;>
    exact Field.keeps_of (Json.gives_natural whole) (fun _ _ _ _ => trivial) _ true

/-- What is held of every cell of the sheet is a part of a text. -/
def SourceSheet.PartOf (whole : Bytes) (sheet : SourceSheet) : Prop :=
  ∀ row ∈ sheet.rows, ∀ cell ∈ row, cell.source <:+: whole

theorem gives_sourceSheet (whole : Bytes) (room : Nat) :
    Gives whole (SourceSheet.PartOf whole) (sourceSheet room) := by
  have hrows := Json.gives_list (Json.gives_list (SourceCell.gives_decoder whole))
  refine Json.gives_structured (fun field hfield => ?_) (List.forall_mem_nil _) room
  simp only [List.mem_cons, List.not_mem_nil, or_false] at hfield
  obtain rfl | rfl | rfl := hfield
  · refine Field.keeps_of (Json.gives_text whole) ?_ "name" true
    exact fun _ _ _ hsheet => hsheet
  · exact Field.keeps_of hrows (fun _ _ hcells _ => hcells) "rows" false
  · refine Field.keeps_of (Json.gives_list (gives_mergedRange whole)) ?_ "merged" false
    exact fun _ _ _ hsheet => hsheet

theorem gives_sourceBook (whole : Bytes) (room : Nat) :
    Gives whole (fun sheets => ∀ sheet ∈ sheets, sheet.PartOf whole) (sourceBook room) := by
  refine Json.gives_structured (fun field hfield => ?_) (List.forall_mem_nil _) room
  obtain rfl := List.mem_singleton.mp hfield
  exact Field.keeps_of (Json.gives_list (gives_sourceSheet whole)) (fun _ _ hsheets _ => hsheets)
    "sheets" false

theorem partOf_of_sources {bytes : Bytes} {sheets : List SourceSheet}
    (h : sources bytes = .ok sheets) : ∀ sheet ∈ sheets, sheet.PartOf bytes :=
  (gives_sourceBook bytes Json.maxRoom).of_decode h

/-! ## Cells that are integers -/

namespace SourceCell

variable {cell : SourceCell} {literal : IntegerLiteral}

/-- A cell that is written as an integer holds the number that is read from it. -/
theorem exists_numeral (h : cell.source = encode literal.chars) :
    ∃ number rest, Json.numeral (encode literal.chars ++ rest) = .ok (number, rest) ∧
      cell.value = .number number := by
  obtain ⟨room, rest, hread⟩ := cell.read
  rw [h] at hread
  obtain ⟨number, hnumeral, hvalue⟩ := literal.exists_numeral hread
  exact ⟨number, rest, hnumeral, hvalue⟩

theorem toList_text_of_number {number : Json.Number} (h : cell.value = .number number) :
    cell.text.toList = number.chars := by
  rw [text, h]
  exact String.toList_ofList

/-- The text of a cell that is written as an integer is what is written exactly if the integer fits into
64 bits. -/
theorem text_eq_iff (h : cell.source = encode literal.chars) :
    cell.text.toList = literal.chars ↔ literal.Fits := by
  obtain ⟨number, rest, hnumeral, hvalue⟩ := exists_numeral h
  rw [toList_text_of_number hvalue, literal.chars_eq_iff hnumeral]

/-- An integer that does not fit is held as a floating-point number. -/
theorem exists_float (h : cell.source = encode literal.chars) (hfits : ¬ literal.Fits) :
    ∃ x, cell.value = .number (.float x) := by
  obtain ⟨number, rest, hnumeral, hvalue⟩ := exists_numeral h
  obtain ⟨x, rfl⟩ := (literal.number_cases hnumeral).2 hfits
  exact ⟨x, hvalue⟩

end SourceCell

/-- In a workbook that is read, every cell is the text of what is written for it, which is a part of the
workbook.  If that is an integer, the text is the integer as it is written exactly if it fits into 64
bits; any other integer is a floating-point number. -/
theorem integer_cells_keep_digits {bytes : Bytes} {grids : List Grid} (h : read bytes = .ok grids) :
    ∃ sheets, sources bytes = .ok sheets ∧ sheets.map SourceSheet.grid = grids ∧
      ∀ sheet ∈ sheets, ∀ row ∈ sheet.rows, ∀ cell ∈ row, cell.source <:+: bytes ∧
        ∀ literal : IntegerLiteral, cell.source = encode literal.chars →
          (cell.text.toList = literal.chars ↔ literal.Fits) ∧
            (¬ literal.Fits → ∃ x, cell.value = .number (.float x)) := by
  rw [read_eq] at h
  cases hsources : sources bytes with
  | error flaw =>
    rw [hsources] at h
    cases h
  | ok sheets =>
    rw [hsources] at h
    refine ⟨sheets, rfl, Except.ok.inj h, fun sheet hsheet row hrow cell hcell =>
      ⟨partOf_of_sources hsources sheet hsheet row hrow cell hcell, fun literal hliteral => ?_⟩⟩
    exact ⟨SourceCell.text_eq_iff hliteral, SourceCell.exists_float hliteral⟩

/-- What is written for the cells of sheets, and their texts. -/
def writtenTexts (sheets : List SourceSheet) : List (List (List (Bytes × String))) :=
  sheets.map fun sheet => sheet.rows.map fun row => row.map fun cell => (cell.source, cell.text)

/-- The text of a workbook with one sheet of one row. -/
def rowText (cells : String) : String :=
  "\x7b\"sheets\":[\x7b\"name\":\"S\",\"rows\":[[" ++ cells ++ "]]\x7d]\x7d"

/-- A workbook with the widest integers of 64 bits. -/
def widestRow : Bytes :=
  Text.Utf8.ofString (rowText "18446744073709551615, -9223372036854775808")

theorem widestRow_keeps_digits : ∃ sheets, sources widestRow = .ok sheets ∧
    writtenTexts sheets =
      [[[(Text.Utf8.ofString "18446744073709551615", "18446744073709551615"),
        (Text.Utf8.ofString "-9223372036854775808", "-9223372036854775808")]]] ∧
    ∀ sheet ∈ sheets, ∀ row ∈ sheet.rows, ∀ cell ∈ row, ∀ literal : IntegerLiteral,
      cell.source = encode literal.chars → literal.Fits → cell.text.toList = literal.chars := by
  have hread : read widestRow =
      .ok [⟨"S", [["18446744073709551615", "-9223372036854775808"]], []⟩] := by
    decide +kernel
  have hwritten : (sources widestRow).map writtenTexts =
      .ok [[[(Text.Utf8.ofString "18446744073709551615", "18446744073709551615"),
        (Text.Utf8.ofString "-9223372036854775808", "-9223372036854775808")]]] := by
    decide +kernel
  obtain ⟨sheets, hsources, -, hcells⟩ := integer_cells_keep_digits hread
  rw [hsources] at hwritten
  exact ⟨sheets, hsources, Except.ok.inj hwritten, fun sheet hsheet row hrow cell hcell literal h =>
    ((hcells sheet hsheet row hrow cell hcell).2 literal h).1.mpr⟩

/-- A workbook with zero behind a minus sign and the least integer of more than 64 bits. -/
def unfitRow : Bytes := Text.Utf8.ofString (rowText "-0, 18446744073709551616")

/-- The text of neither cell is what is written. -/
theorem unfitRow_loses_digits :
    (sources unfitRow).map writtenTexts =
      .ok [[[(Text.Utf8.ofString "-0", "-0.0"),
        (Text.Utf8.ofString "18446744073709551616", "1.8446744073709552e+19")]]] ∧
    read unfitRow = .ok [⟨"S", [["-0.0", "1.8446744073709552e+19"]], []⟩] := by
  decide +kernel

end JsonBook

end SheetCompiler
