import Mathlib.Data.List.Basic
import SheetCompiler.Proofs.TextBytes
import SheetCompiler.Workbook.Csv

/-!
# Comma-separated values read back

`Csv.write` writes rows in the plainest way: every cell in quotes, every quote in it twice, commas
between the cells and a line end of any kind behind each row.  The text is cut into the cells it was
written from, and these are read back as they were (`Csv.read_write`).

What the bytes are cut into does not depend on their positions, so the proof follows the fields alone
(`Csv.cut`).  Between quotes a character gives back its bytes, since no byte of another character is a
quote (`Csv.cut_cellChars`); so a row ends with all its cells (`Csv.cut_rowChars`) behind which the next
one begins (`Csv.cut_lineEnd`).
-/

namespace SheetCompiler

namespace Csv

open Text (Bytes)
open Text.Utf8 (encode encodeChar)

/-! ## Writing -/

/-- What ends a line. -/
inductive LineEnd where
  | lineFeed
  | carriageReturn
  | both
  deriving DecidableEq

/-- The characters of a line end. -/
def LineEnd.chars : LineEnd → List Char
  | lineFeed => ['\n']
  | carriageReturn => ['\r']
  | both => ['\r', '\n']

/-- A character between quotes: a quote is written twice. -/
def doubled (c : Char) : List Char := if c = '"' then ['"', '"'] else [c]

/-- A cell in quotes. -/
def cellChars (cell : String) : List Char := '"' :: (cell.toList.flatMap doubled ++ ['"'])

/-- The cells of a row, with commas between them. -/
def rowChars (row : List String) : List Char := [','].intercalate (row.map cellChars)

/-- Rows of cells as a text. -/
def write (lineEnd : LineEnd) (rows : List (List String)) : List Char :=
  rows.flatMap fun row => rowChars row ++ lineEnd.chars

/-! ## Cutting without positions -/

/-- The rows of fields that the rest of a text is cut into. -/
def cut (row : Partial) : Bytes → List (List Bytes)
  | [] => (finish row).toList
  | b :: rest =>
    match step row b with
    | (row, none) => cut row rest
    | (row, some cells) => cells :: cut row rest

theorem map_cells_rowsFrom (bytes : Bytes) (start here : Position) (row : Partial) :
    (rowsFrom start here row bytes).map Row.cells = cut row bytes := by
  induction bytes generalizing start here row with
  | nil =>
    rw [rowsFrom, cut]
    cases finish row <;> rfl
  | cons b rest ih =>
    rw [rowsFrom, cut]
    rcases step row b with ⟨next, _ | cells⟩
    · exact ih _ _ next
    · simp only [List.map_cons, ih]

theorem cut_of_none {row next : Partial} {b : UInt8} (h : step row b = (next, none))
    (rest : Bytes) : cut row (b :: rest) = cut next rest := by
  rw [cut, h]

theorem cut_of_some {row next : Partial} {b : UInt8} {cells : List Bytes}
    (h : step row b = (next, some cells)) (rest : Bytes) :
    cut row (b :: rest) = cells :: cut next rest := by
  rw [cut, h]

/-! ## A cell -/

/-- Bytes that are no quotes are kept between quotes. -/
theorem cut_quoted {bytes : Bytes} (h : ∀ b ∈ bytes, b ≠ quote) (fields : List Bytes)
    (current rest : Bytes) : cut ⟨.quoted, fields, current⟩ (bytes ++ rest) =
      cut ⟨.quoted, fields, bytes.reverse ++ current⟩ rest := by
  induction bytes generalizing current with
  | nil => rfl
  | cons b bytes ih =>
    rw [List.forall_mem_cons] at h
    rw [List.cons_append, cut_of_none (step_quoted h.1 fields current), ih h.2, List.reverse_cons,
      List.append_assoc, List.singleton_append]

/-- Only the quote has the byte of the quote. -/
theorem ne_quote_of_mem_encodeChar {c : Char} (hc : c ≠ '"') {b : UInt8} (hb : b ∈ encodeChar c) :
    b ≠ quote := by
  rintro rfl
  by_cases hascii : c.toNat < 128
  · rw [Text.Utf8.encodeChar_of_lt hascii, List.mem_singleton] at hb
    have hcode : quote.toNat = c.toNat := by rw [hb, Text.Utf8.toNat_toUInt8 (by omega)]
    exact hc (Char.toNat_inj.mp hcode.symm)
  · exact absurd (Text.Utf8.le_toNat_of_mem_encodeChar (Nat.le_of_not_lt hascii) hb) (by decide)

/-- A character between quotes gives back its bytes. -/
theorem cut_doubled (c : Char) (fields : List Bytes) (current rest : Bytes) :
    cut ⟨.quoted, fields, current⟩ (encode (doubled c) ++ rest) =
      cut ⟨.quoted, fields, (encodeChar c).reverse ++ current⟩ rest := by
  by_cases hc : c = '"'
  · subst hc
    have hbytes : encode (doubled '"') = [quote, quote] := by decide
    have hquote : step ⟨.quoted, fields, current⟩ quote =
        (⟨.quoteInQuoted, fields, current⟩, none) := by simp [step]
    rw [hbytes, List.cons_append, List.singleton_append, cut_of_none hquote,
      cut_of_none (step_quoteInQuoted fields current)]
    rfl
  · rw [doubled, if_neg hc, encode, List.flatMap_singleton]
    exact cut_quoted (fun b hb => ne_quote_of_mem_encodeChar hc hb) fields current rest

theorem cut_text (chars : List Char) (fields : List Bytes) (current rest : Bytes) :
    cut ⟨.quoted, fields, current⟩ (encode (chars.flatMap doubled) ++ rest) =
      cut ⟨.quoted, fields, (encode chars).reverse ++ current⟩ rest := by
  induction chars generalizing current with
  | nil => rfl
  | cons c chars ih =>
    rw [List.flatMap_cons, Text.Utf8.encode_append, List.append_assoc, cut_doubled, ih,
      Text.Utf8.encode_cons, List.reverse_append, List.append_assoc]

/-- Where a cell may begin. -/
def Place.opens : Place → Bool
  | .row | .rowAfterReturn | .field => true
  | .plain | .quoted | .quoteInQuoted => false

/-- Behind a cell only a comma or a line end is missing. -/
theorem cut_cellChars {place : Place} (h : place.opens = true) (cell : String)
    (fields : List Bytes) (rest : Bytes) :
    cut ⟨place, fields, []⟩ (encode (cellChars cell) ++ rest) =
      cut ⟨.quoteInQuoted, fields, (Text.Utf8.ofString cell).reverse⟩ rest := by
  have hopen : step ⟨place, fields, []⟩ quote = (⟨.quoted, fields, []⟩, none) := by
    cases place <;> first | rfl | cases h
  have hclose : ∀ current, step ⟨.quoted, fields, current⟩ quote =
      (⟨.quoteInQuoted, fields, current⟩, none) := fun _ => by simp [step]
  have hbytes : encode (cellChars cell) =
      quote :: (encode (cell.toList.flatMap doubled) ++ [quote]) := by
    rw [cellChars, Text.Utf8.encode_cons, Text.Utf8.encode_append]
    rfl
  rw [hbytes, List.cons_append, cut_of_none hopen, List.append_assoc, cut_text,
    List.singleton_append, cut_of_none (hclose _), List.append_nil]
  rfl

/-! ## A row -/

/-- Behind the last cell of a row only the line end is missing. -/
theorem cut_rowChars {place : Place} (h : place.opens = true) {row : List String} (hrow : row ≠ [])
    (fields : List Bytes) (rest : Bytes) :
    ∃ whole : Partial, whole.place = .quoteInQuoted ∧
      whole.cells = fields.reverse ++ row.map Text.Utf8.ofString ∧
      cut ⟨place, fields, []⟩ (encode (rowChars row) ++ rest) = cut whole rest := by
  induction row generalizing place fields with
  | nil => exact absurd rfl hrow
  | cons cell row ih =>
    cases row with
    | nil =>
      refine ⟨⟨.quoteInQuoted, fields, (Text.Utf8.ofString cell).reverse⟩, rfl, ?_, ?_⟩
      · simp [Partial.cells]
      · rw [rowChars, List.map_singleton, List.intercalate_singleton, cut_cellChars h]
    | cons next row =>
      have hfield : Place.opens .field = true := rfl
      obtain ⟨whole, hplace, hcells, hcut⟩ :=
        ih hfield (List.cons_ne_nil _ _) (Text.Utf8.ofString cell :: fields)
      refine ⟨whole, hplace, ?_, ?_⟩
      · rw [hcells, List.reverse_cons, List.append_assoc, List.singleton_append]
        rfl
      · have hcomma : step ⟨.quoteInQuoted, fields, (Text.Utf8.ofString cell).reverse⟩ comma =
            (⟨.field, Text.Utf8.ofString cell :: fields, []⟩, none) := by
          simp [step, stepPlain, Partial.endField, comma, quote]
        have hchars : rowChars (cell :: next :: row) =
            cellChars cell ++ ',' :: rowChars (next :: row) := by
          rw [rowChars, List.map_cons, List.map_cons, List.intercalate_cons_cons, List.append_assoc]
          rfl
        rw [hchars, Text.Utf8.encode_append, List.append_assoc, cut_cellChars h,
          Text.Utf8.encode_cons, show encodeChar ',' = [comma] from rfl, List.append_assoc,
          List.singleton_append, cut_of_none hcomma, hcut]

/-- The line end gives out the row, and the next one may begin. -/
theorem cut_lineEnd (lineEnd : LineEnd) {row : Partial} (h : row.place = .quoteInQuoted)
    (rest : Bytes) : ∃ place : Place, (place = .row ∨ place = .rowAfterReturn) ∧
      cut row (encode lineEnd.chars ++ rest) = row.cells :: cut ⟨place, [], []⟩ rest := by
  have hfeed : step row lineFeed = (nextRow lineFeed, some row.cells) := by
    simp [step, h, stepPlain, lineFeed, quote, comma, endsLine]
  have hreturn : step row carriageReturn = (nextRow carriageReturn, some row.cells) := by
    simp [step, h, stepPlain, carriageReturn, quote, comma, endsLine]
  cases lineEnd with
  | lineFeed => exact ⟨.row, Or.inl rfl, cut_of_some hfeed rest⟩
  | carriageReturn => exact ⟨.rowAfterReturn, Or.inr rfl, cut_of_some hreturn rest⟩
  | both =>
    have hrest : step (nextRow carriageReturn) lineFeed = (⟨.row, [], []⟩, none) := rfl
    exact ⟨.row, Or.inl rfl, (cut_of_some hreturn _).trans
      (congrArg (row.cells :: ·) (cut_of_none hrest rest))⟩

/-! ## All rows -/

theorem cut_write (lineEnd : LineEnd) {rows : List (List String)} (h : ∀ row ∈ rows, row ≠ [])
    {place : Place} (hplace : place = .row ∨ place = .rowAfterReturn) :
    cut ⟨place, [], []⟩ (encode (write lineEnd rows)) =
      rows.map fun row => row.map Text.Utf8.ofString := by
  induction rows generalizing place with
  | nil => rcases hplace with rfl | rfl <;> rfl
  | cons row rows ih =>
    rw [List.forall_mem_cons] at h
    have hopens : place.opens = true := by rcases hplace with rfl | rfl <;> rfl
    rw [write, List.flatMap_cons, Text.Utf8.encode_append, Text.Utf8.encode_append,
      List.append_assoc]
    obtain ⟨whole, hwhole, hcells, hcut⟩ := cut_rowChars hopens h.1 []
      (encode lineEnd.chars ++ encode (write lineEnd rows))
    obtain ⟨next, hnext, hend⟩ := cut_lineEnd lineEnd hwhole (encode (write lineEnd rows))
    rw [← write, hcut, hend, hcells, ih h.2 hnext, List.reverse_nil, List.nil_append, List.map_cons]

theorem readCells_ofString (start : Position) (field : Nat) (row : List String) :
    readCells start field (row.map Text.Utf8.ofString) = .ok row := by
  induction row generalizing field with
  | nil => rfl
  | cons cell row ih =>
    rw [List.map_cons, readCells, Text.Utf8.ofString, Text.Utf8.decode_encode]
    simp only [ih, String.ofList_toList]

theorem readRows_of_cells {found : List Row} {rows : List (List String)}
    (h : found.map Row.cells = rows.map fun row => row.map Text.Utf8.ofString) :
    readRows found = .ok rows := by
  induction found generalizing rows with
  | nil =>
    obtain rfl := List.map_eq_nil_iff.mp h.symm
    rfl
  | cons first found ih =>
    obtain ⟨row, rows, rfl, hrow, hrows⟩ := List.map_eq_cons_iff.mp h.symm
    rw [readRows, ← hrow, readCells_ofString, ih hrows.symm]

/-- A text that begins with a quote has no byte order mark. -/
theorem map_cells_rows_write (lineEnd : LineEnd) {written : List (List String)}
    (h : ∀ row ∈ written, row ≠ []) :
    (rows (encode (write lineEnd written))).map Row.cells =
      written.map fun row => row.map Text.Utf8.ofString := by
  have hmark : byteOrderMark.isPrefixOf (encode (write lineEnd written)) = false := by
    cases written with
    | nil => rfl
    | cons row rest =>
      obtain ⟨cell, cells, rfl⟩ := List.exists_cons_of_ne_nil (h row List.mem_cons_self)
      cases cells <;> rfl
  rw [rows, if_neg (Bool.eq_false_iff.mp hmark), map_cells_rowsFrom]
  exact cut_write lineEnd h (Or.inl rfl)

/-- Rows that are not empty are read back as they were written. -/
theorem read_write (name : String) (lineEnd : LineEnd) {rows : List (List String)}
    (h : ∀ row ∈ rows, row ≠ []) :
    read name (encode (write lineEnd rows)) = .ok ⟨name, rows, []⟩ := by
  rw [read, readRows_of_cells (map_cells_rows_write lineEnd h)]

end Csv

end SheetCompiler
