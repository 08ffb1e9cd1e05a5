import SheetCompiler.Proofs.CellRow

/-!
# Header blocks

A `HeaderBlock` is the header of a worksheet without the worksheet: the cells of its rows, and a
column beyond which there is nothing in them.  Many worksheets have it, each with its own data rows
below and its own extent (`HeaderBlock.IsSheet`).

They all have the same schema but for the last row that is looked at (`ofSheet_of_isSheet`), as long
as the row below the block is no header row.  The proof compares two worksheets that read alike in
their first rows (`Alike`): a header row is read through one worksheet just as through the other,
and so is a column of the header.
-/

namespace SheetCompiler

/-- The header rows of a worksheet. -/
structure HeaderBlock where
  /-- The name of the worksheet. -/
  name : String
  /-- The last column with something in it. -/
  width : Nat
  /-- The header rows, from the top. -/
  rows : List CellRow
  /-- Beyond the width every cell can be read and is blank. -/
  blank : ∀ row ∈ rows, ∀ column, width < column →
    ∃ cell, row column = .ok cell ∧ cell.bind Text.filled? = none

/-- A worksheet that has the rows of a block and then some data rows, and reaches as far as all of
them. -/
structure HeaderBlock.IsSheet (block : HeaderBlock) (data : List CellRow) (sheet : Worksheet) :
    Prop where
  name : sheet.name = block.name
  extent : ∃ columns, block.width ≤ columns ∧
    sheet.extent = some ⟨block.rows.length + data.length, columns⟩
  cells : ∀ index row, (block.rows ++ data)[index]? = some row →
    ∀ column, 0 < column → sheet.cellText (index + 1) column = row column

/-- The first of the data rows, if there is one, is no header row. -/
def Rules.StopsAt (rules : Rules) (data : List CellRow) : Prop :=
  ∀ row ∈ data.head?, ∃ cell, row Worksheet.markerColumn = .ok cell ∧
    (cell.bind Text.filled?).bind (Header.keyword? rules.settings.marker) = none

/-! ## Grids -/

/-- The cells of a row of a grid. -/
def CellRow.ofTexts (texts : List String) : CellRow := fun column =>
  if column = 0 then .error ⟨"no cell"⟩ else .ok texts[column - 1]?

theorem le_foldl_max {widest : Nat} (rows : List (List String)) :
    widest ≤ rows.foldl (fun widest row => max widest row.length) widest := by
  induction rows generalizing widest with
  | nil => exact Nat.le_refl _
  | cons row rest ih => exact Nat.le_trans (Nat.le_max_left _ _) ih

theorem length_le_foldl_max {widest : Nat} {rows : List (List String)} {row : List String}
    (h : row ∈ rows) :
    row.length ≤ rows.foldl (fun widest row => max widest row.length) widest := by
  induction rows generalizing widest with
  | nil => cases h
  | cons first rest ih =>
    rcases List.mem_cons.mp h with rfl | hrest
    · exact Nat.le_trans (Nat.le_max_right _ _) (le_foldl_max rest)
    · exact ih hrest

/-- The header block of a grid. -/
def HeaderBlock.ofTexts (name : String) (header : List (List String)) : HeaderBlock where
  name := name
  width := Grid.width { name := name, rows := header }
  rows := header.map CellRow.ofTexts
  blank := by
    intro row hrow column hcolumn
    obtain ⟨texts, htexts, rfl⟩ := List.mem_map.mp hrow
    have hle : texts.length ≤ Grid.width { name := name, rows := header } :=
      length_le_foldl_max htexts
    have hnone : texts[column - 1]? = none := List.getElem?_eq_none (by omega)
    exact ⟨none, by rw [CellRow.ofTexts, if_neg (by omega), hnone], rfl⟩

/-- A grid without merged ranges is a worksheet with the block of its header rows. -/
theorem HeaderBlock.isSheet_grid (name : String) (header data : List (List String)) :
    (HeaderBlock.ofTexts name header).IsSheet (data.map CellRow.ofTexts)
      (Grid.worksheet { name := name, rows := header ++ data }) := by
  refine ⟨rfl, ⟨Grid.width { name := name, rows := header ++ data }, ?_, ?_⟩, ?_⟩
  · show Grid.width _ ≤ (header ++ data).foldl _ 0
    rw [List.foldl_append]
    exact le_foldl_max data
  · rw [Grid.worksheet_extent, Grid.extent, ofTexts, List.length_map, List.length_map,
      List.length_append]
  · intro index row hget column hcolumn
    rw [ofTexts, ← List.map_append, List.getElem?_map, Option.map_eq_some_iff] at hget
    obtain ⟨texts, htexts, rfl⟩ := hget
    have hcell : ∀ row column, (Grid.worksheet { name := name, rows := header ++ data }).cellText
        row column = (Grid.worksheet { name := name, rows := header ++ data }).rawCell row column :=
      fun _ _ => rfl
    have hne : ¬ (index + 1 = 0 ∨ column = 0) := by omega
    rw [hcell, Grid.worksheet_rawCell, Grid.rawCell, if_neg hne, CellRow.ofTexts, if_neg (by omega),
      Nat.add_sub_cancel, htexts]
    rfl

/-! ## Worksheets that read alike -/

/-- Two worksheets, each seen up to a column of its own, read alike in their first rows.  What only
one of them shows is blank. -/
structure Alike (rows : Nat) (sheet other : Worksheet) (width otherWidth : Nat) : Prop where
  cells : ∀ row column, 0 < row → row ≤ rows → 0 < column →
    column ≤ max Worksheet.markerColumn (max width otherWidth) →
    sheet.readFilled row column = other.readFilled row column
  blank : ∀ row column, 0 < row → row ≤ rows → min width otherWidth < column →
    column ≤ max width otherWidth → sheet.readFilled row column = .ok none

theorem Alike.symm {rows width otherWidth : Nat} {sheet other : Worksheet}
    (h : Alike rows sheet other width otherWidth) : Alike rows other sheet otherWidth width := by
  constructor
  · intro row column hrow hrows hcolumn hle
    rw [Nat.max_comm otherWidth] at hle
    rw [h.cells row column hrow hrows hcolumn hle]
  · intro row column hrow hrows hmin hmax
    rw [Nat.min_comm] at hmin
    rw [Nat.max_comm] at hmax
    rw [← h.cells row column hrow hrows (by omega) (by omega),
      h.blank row column hrow hrows hmin hmax]

namespace Worksheet

theorem readFilled_eq_of_cellText {sheet : Worksheet} {row column : Nat} {cell : Option String}
    (h : sheet.cellText row column = .ok cell) :
    sheet.readFilled row column = .ok (cell.bind Text.filled?) := by
  rw [readFilled, read, h]
  rfl

theorem cellText_of_readFilled {sheet : Worksheet} {row column : Nat} {found : Option String}
    (h : sheet.readFilled row column = .ok found) :
    ∃ cell, sheet.cellText row column = .ok cell ∧ cell.bind Text.filled? = found := by
  rw [readFilled] at h
  obtain ⟨cell, hread, hfound⟩ := bind_eq_ok.mp h
  exact ⟨cell, cellText_of_read hread, Except.ok.inj hfound⟩

theorem read_eq_mapError (sheet : Worksheet) (row column : Nat) : sheet.read row column =
    (sheet.cellText row column).mapError fun fault =>
      .unreadableCell sheet.name row column fault.reason := by
  rw [read]
  cases sheet.cellText row column <;> rfl

theorem readFilled_eq_mapError (sheet : Worksheet) (row column : Nat) :
    sheet.readFilled row column =
      ((sheet.cellText row column).map (Option.bind · Text.filled?)).mapError fun fault =>
        .unreadableCell sheet.name row column fault.reason := by
  rw [readFilled, read_eq_mapError]
  cases sheet.cellText row column <;> rfl

/-- Blank cells are read alike, and so are texts with the same white space left out around them. -/
theorem readFilled_congr {sheet other : Worksheet} {row column : Nat}
    (hname : sheet.name = other.name)
    (h : (sheet.cellText row column).map (Option.bind · Text.filled?) =
      (other.cellText row column).map (Option.bind · Text.filled?)) :
    sheet.readFilled row column = other.readFilled row column := by
  rw [readFilled_eq_mapError, readFilled_eq_mapError, h, hname]

theorem firstFilled_of_blank {sheet : Worksheet} {row count column : Nat}
    (h : ∀ c, column ≤ c → c < column + count → sheet.readFilled row c = .ok none) :
    sheet.firstFilled row count column = .ok none := by
  induction count generalizing column with
  | zero => rfl
  | succ count ih =>
    rw [firstFilled, h column (Nat.le_refl _) (by omega)]
    exact ih fun c hc hlt => h c (by omega) (by omega)

/-- Further columns that are blank do not matter to the first filled one. -/
theorem firstFilled_add {sheet : Worksheet} {row first more column : Nat}
    (h : ∀ c, column + first ≤ c → c < column + first + more → sheet.readFilled row c = .ok none) :
    sheet.firstFilled row (first + more) column = sheet.firstFilled row first column := by
  induction first generalizing column with
  | zero =>
    rw [Nat.add_zero] at h
    rw [Nat.zero_add, firstFilled_of_blank h]
    rfl
  | succ first ih =>
    rw [Nat.succ_add, firstFilled, firstFilled]
    rw [ih fun c hc hlt => h c (by omega) (by omega)]

theorem firstFilled_congr {sheet other : Worksheet} {row count column : Nat}
    (h : ∀ c, column ≤ c → c < column + count → sheet.readFilled row c = other.readFilled row c) :
    sheet.firstFilled row count column = other.firstFilled row count column := by
  induction count generalizing column with
  | zero => rfl
  | succ count ih =>
    rw [firstFilled, firstFilled, h column (Nat.le_refl _) (by omega),
      ih fun c hc hlt => h c (by omega) (by omega)]

end Worksheet

namespace Alike

variable {rows width otherWidth : Nat} {sheet other : Worksheet}

theorem firstFilled_of_le (h : Alike rows sheet other width otherWidth) (hle : width ≤ otherWidth)
    {row : Nat} (hrow : 0 < row) (hrows : row ≤ rows) :
    sheet.firstFilled row (width - Worksheet.markerColumn) (Worksheet.markerColumn + 1) =
      other.firstFilled row (otherWidth - Worksheet.markerColumn) (Worksheet.markerColumn + 1) := by
  rw [Worksheet.markerColumn]
  have hwidth : otherWidth - 1 = (width - 1) + ((otherWidth - 1) - (width - 1)) := by omega
  rw [hwidth, Worksheet.firstFilled_add, Worksheet.firstFilled_congr]
  · exact fun column hlow hhigh => h.cells row column hrow hrows (by omega) (by omega)
  · intro column hlow hhigh
    rw [← h.cells row column hrow hrows (by omega) (by omega)]
    exact h.blank row column hrow hrows (by omega) (by omega)

theorem firstFilled_eq (h : Alike rows sheet other width otherWidth) {row : Nat} (hrow : 0 < row)
    (hrows : row ≤ rows) :
    sheet.firstFilled row (width - Worksheet.markerColumn) (Worksheet.markerColumn + 1) =
      other.firstFilled row (otherWidth - Worksheet.markerColumn) (Worksheet.markerColumn + 1) := by
  rcases Nat.le_total width otherWidth with hle | hle
  · exact h.firstFilled_of_le hle hrow hrows
  · exact (h.symm.firstFilled_of_le hle hrow hrows).symm

theorem addRow_eq (h : Alike rows sheet other width otherWidth) {row : Nat} (hrow : 0 < row)
    (hrows : row ≤ rows) (rules : Rules) (keyword : String) (header : Header) :
    Header.addRow rules sheet width row keyword header =
      Header.addRow rules other otherWidth row keyword header := by
  rw [Header.addRow, Header.addRow, h.firstFilled_eq hrow hrows]

/-- Both worksheets have the same header rows. -/
theorem scan_eq (h : Alike rows sheet other width otherWidth) (rules : Rules) :
    ∀ {count row : Nat} (header : Header), 0 < row → row + count ≤ rows + 1 →
      Header.scan rules sheet width count row header =
        Header.scan rules other otherWidth count row header
  | 0, _, _, _, _ => rfl
  | count + 1, row, header, hrow, hcount => by
    have hmarker := h.cells row Worksheet.markerColumn hrow (by omega) Nat.one_pos
      (Nat.le_max_left _ _)
    have hadd := h.addRow_eq hrow (by omega) rules
    have hrest := fun next => @scan_eq h rules count (row + 1) next (by omega) (by omega)
    rw [Header.scan, Header.scan, hmarker]
    simp only [hadd, hrest]

end Alike

/-! ## Reading the header rows -/

namespace Header

/-- The rows with a keyword are among the header rows. -/
def Bounded (header : Header) : Prop :=
  ∀ entry ∈ header.keywordRows, 0 < entry.1 ∧ entry.1 ≤ header.rows

variable {rules : Rules} {sheet : Worksheet} {columns : Nat}

/-- Taking in the row below the header rows makes it one of them. -/
theorem addRow_eq_ok {row : Nat} {keyword : String} {header next : Header}
    (h : addRow rules sheet columns row keyword header = .ok next) (hrow : header.rows + 1 = row)
    (hbounded : header.Bounded) : next.rows = row ∧ next.Bounded := by
  have hold : ∀ entry ∈ header.keywordRows, 0 < entry.1 ∧ entry.1 ≤ row := by
    intro entry hentry
    obtain ⟨hpos, hle⟩ := hbounded entry hentry
    omega
  rw [addRow] at h
  by_cases hempty : keyword.isEmpty = true
  · simp only [hempty, if_true] at h
    rw [← Except.ok.inj h]
    exact ⟨rfl, hold⟩
  · simp only [hempty, Bool.false_eq_true, if_false] at h
    split at h
    · rename_i folded _
      rw [← Except.ok.inj h]
      refine ⟨rfl, List.forall_mem_append.mpr ⟨hold, List.forall_mem_singleton.mpr ?_⟩⟩
      exact ⟨by show 0 < row; omega, Nat.le_refl _⟩
    · split at h
      · rw [← Except.ok.inj h]
        exact ⟨rfl, hold⟩
      · obtain ⟨found, -, h⟩ := bind_eq_ok.mp h
        cases found with
        | none => exact Except.ok.inj h ▸ ⟨rfl, hold⟩
        | some value => exact Except.ok.inj h ▸ ⟨rfl, hold⟩

/-- One step of reading header rows. -/
theorem scan_succ (rules : Rules) (sheet : Worksheet) (columns count row : Nat) (header : Header) :
    scan rules sheet columns (count + 1) row header =
      (sheet.readFilled row Worksheet.markerColumn).bind fun cell =>
        match cell.bind (keyword? rules.settings.marker) with
        | none => .ok header
        | some keyword => (addRow rules sheet columns row keyword header).bind fun next =>
          scan rules sheet columns count (row + 1) next := rfl

/-- Reading header rows drops none. -/
theorem scan_eq_ok : ∀ {count row : Nat} {header last : Header}, header.rows + 1 = row →
    header.Bounded → scan rules sheet columns count row header = .ok last →
    header.rows ≤ last.rows ∧ last.Bounded
  | 0, _, _, _, _, hbounded, h => by
    rw [← Except.ok.inj h]
    exact ⟨Nat.le_refl _, hbounded⟩
  | count + 1, row, header, last, hrow, hbounded, h => by
    rw [scan_succ] at h
    obtain ⟨cell, -, h⟩ := bind_eq_ok.mp h
    cases hkeyword : cell.bind (keyword? rules.settings.marker) with
    | none =>
      simp only [hkeyword] at h
      rw [← Except.ok.inj h]
      exact ⟨Nat.le_refl _, hbounded⟩
    | some keyword =>
      simp only [hkeyword] at h
      obtain ⟨next, hadd, h⟩ := bind_eq_ok.mp h
      obtain ⟨hnext, hnextBounded⟩ := addRow_eq_ok hadd hrow hbounded
      obtain ⟨hle, hlast⟩ := scan_eq_ok (by omega) hnextBounded h
      exact ⟨by omega, hlast⟩

/-- Reading goes on below some rows if all of them are header rows. -/
theorem scan_add {more : Nat} : ∀ {count row : Nat} {header : Header}, header.rows + 1 = row →
    header.Bounded → scan rules sheet columns (count + more) row header =
      (scan rules sheet columns count row header).bind fun next =>
        if next.rows + 1 = row + count then scan rules sheet columns more (row + count) next
        else .ok next
  | 0, row, header, hrow, _ => by
    rw [Nat.zero_add, scan]
    simp only [Except.bind, Nat.add_zero, if_pos hrow]
  | count + 1, row, header, hrow, hbounded => by
    rw [Nat.succ_add, scan_succ, scan_succ]
    cases sheet.readFilled row Worksheet.markerColumn with
    | error fault => rfl
    | ok cell =>
      cases hkeyword : cell.bind (keyword? rules.settings.marker) with
      | none =>
        have hne : ¬ header.rows + 1 = row + (count + 1) := by omega
        simp only [Except.bind, hkeyword, if_neg hne]
      | some keyword =>
        simp only [Except.bind, hkeyword]
        cases hadd : addRow rules sheet columns row keyword header with
        | error fault => rfl
        | ok next =>
          obtain ⟨hnext, hnextBounded⟩ := addRow_eq_ok hadd hrow hbounded
          have hshift : row + (count + 1) = row + 1 + count := by omega
          rw [hshift]
          exact scan_add (by omega) hnextBounded

end Header

/-! ## Reading the columns of a header -/

namespace Alike

variable {rows width otherWidth : Nat} {sheet other : Worksheet} {header : Header}

/-- Both worksheets say the same about a column. -/
theorem column_eq (h : Alike rows sheet other width otherWidth) (hbounded : header.Bounded)
    (hrows : header.rows ≤ rows) {index : Nat} (hindex : 0 < index)
    (hwidth : index ≤ max width otherWidth) :
    header.column sheet index = header.column other index := by
  refine foldlM_congr (fun entry hentry column => ?_) _
  obtain ⟨hpos, hle⟩ := hbounded entry hentry
  rw [h.cells entry.1 index hpos (Nat.le_trans hle hrows) hindex (by omega)]

/-- A column that only one of them shows adds nothing. -/
theorem addColumn_of_blank (h : Alike rows sheet other width otherWidth)
    (hbounded : header.Bounded) (hrows : header.rows ≤ rows) {index : Nat}
    (hmin : min width otherWidth < index) (hmax : index ≤ max width otherWidth) (rules : Rules)
    (schema : Schema) : Schema.addColumn rules sheet header schema index = .ok schema := by
  have hcolumn : header.column sheet index = .ok { index := index } := by
    refine foldlM_of_skip (fun entry hentry column => ?_) _
    obtain ⟨hpos, hle⟩ := hbounded entry hentry
    rw [h.blank entry.1 index hpos (Nat.le_trans hle hrows) hmin hmax]
    rfl
  rw [Schema.addColumn, hcolumn]
  rfl

/-- Without the columns that only one of them shows. -/
theorem foldlM_addColumn_min (h : Alike rows sheet other width otherWidth)
    (hbounded : header.Bounded) (hrows : header.rows ≤ rows) (rules : Rules) (schema : Schema) :
    (List.range' (Worksheet.markerColumn + 1) (width - Worksheet.markerColumn)).foldlM
        (Schema.addColumn rules sheet header) schema =
      (List.range' (Worksheet.markerColumn + 1)
        (min width otherWidth - Worksheet.markerColumn)).foldlM
          (Schema.addColumn rules sheet header) schema := by
  rw [Worksheet.markerColumn]
  have hwidth : width - 1 =
      (min width otherWidth - 1) + ((width - 1) - (min width otherWidth - 1)) := by
    omega
  rw [hwidth, ← List.range'_append_1, List.foldlM_append]
  have hskip : ∀ index ∈ List.range' (1 + 1 + (min width otherWidth - 1))
      ((width - 1) - (min width otherWidth - 1)), ∀ state,
        Schema.addColumn rules sheet header state index = .ok state := by
    intro index hindex state
    obtain ⟨hlow, hhigh⟩ := List.mem_range'_1.mp hindex
    exact h.addColumn_of_blank hbounded hrows (by omega) (by omega) rules state
  cases (List.range' (1 + 1) (min width otherWidth - 1)).foldlM
      (Schema.addColumn rules sheet header) schema with
  | error fault => rfl
  | ok next => exact foldlM_of_skip hskip next

/-- Both worksheets add the same columns. -/
theorem addColumn_eq (h : Alike rows sheet other width otherWidth) (hbounded : header.Bounded)
    (hrows : header.rows ≤ rows) {index : Nat} (hindex : 0 < index)
    (hwidth : index ≤ max width otherWidth) (rules : Rules) (last : Nat) (before : Schema) :
    Schema.addColumn rules other header { before with rows := last } index =
      (Schema.addColumn rules sheet header before index).map fun after =>
        { after with rows := last } := by
  rw [Schema.addColumn, Schema.addColumn, h.column_eq hbounded hrows hindex hwidth]
  cases header.column other index with
  | error fault => rfl
  | ok column =>
    show (Except.ok _ : Except SheetFault Schema) = .ok _
    by_cases husable : rules.usable column = true
    · simp only [husable, if_true]
      rfl
    · simp only [husable, Bool.false_eq_true, if_false]

/-- Both worksheets have the same schema, but for the last row that is looked at. -/
theorem build_eq_ok (h : Alike rows sheet other width otherWidth) (hbounded : header.Bounded)
    (hrows : header.rows ≤ rows) {rules : Rules} {last : Nat} {schema : Schema}
    (hbuild : Schema.build rules sheet header last width = .ok schema) (otherLast : Nat) :
    Schema.build rules other header otherLast otherWidth =
      .ok { schema with rows := otherLast } := by
  obtain ⟨hne, hfield, htype, hfold⟩ := Schema.build_eq_ok hbuild
  rw [h.foldlM_addColumn_min hbounded hrows] at hfold
  have hother := h.symm.foldlM_addColumn_min hbounded hrows rules (Schema.start header otherLast)
  have hsteps : ∀ index ∈ List.range' (Worksheet.markerColumn + 1)
      (min width otherWidth - Worksheet.markerColumn), ∀ before : Schema,
        Schema.addColumn rules other header { before with rows := otherLast } index =
          (Schema.addColumn rules sheet header before index).map fun after =>
            { after with rows := otherLast } := by
    intro index hindex before
    rw [List.mem_range'_1, Worksheet.markerColumn] at hindex
    exact h.addColumn_eq hbounded hrows (by omega) (by omega) rules otherLast before
  have hmapped := foldlM_map (fun before : Schema => { before with rows := otherLast }) hsteps
    (Schema.start header last)
  rw [Nat.min_comm otherWidth width] at hother
  have hboth : (header.has Keyword.field && header.has Keyword.type) = true := by
    rw [hfield, htype, Bool.and_true]
  rw [Schema.build, if_neg hne]
  simp only [hboth, Bool.not_true, Bool.false_eq_true, if_false]
  show (List.range' _ _).foldlM _ (Schema.start header otherLast) = _
  rw [hother]
  show (List.range' _ _).foldlM _ { Schema.start header last with rows := otherLast } = _
  rw [hmapped, hfold]
  rfl

end Alike

/-! ## Worksheets with the same block -/

theorem Schema.headerRows_of_build {rules : Rules} {sheet : Worksheet} {header : Header}
    {rows columns : Nat} {schema : Schema}
    (h : build rules sheet header rows columns = .ok schema) :
    schema.headerRows = header.rows := by
  obtain ⟨-, -, -, hfold⟩ := Schema.build_eq_ok h
  refine foldlM_preserves (fun schema => schema.headerRows = header.rows) ?_ rfl hfold
  intro before index _ after hbefore hstep
  obtain ⟨column, -, rfl⟩ := addColumn_eq_ok hstep
  split
  · exact hbefore
  · exact hbefore

namespace HeaderBlock

variable {block : HeaderBlock} {rules : Rules} {data others : List CellRow}
  {sheet other : Worksheet} {header last : Header} {width : Nat}

theorem IsSheet.cellText_header (h : block.IsSheet data sheet) {number : Nat} (hpos : 0 < number)
    (hle : number ≤ block.rows.length) :
    ∃ row, block.rows[number - 1]? = some row ∧
      ∀ column, 0 < column → sheet.cellText number column = row column := by
  have hlt : number - 1 < block.rows.length := by omega
  have hget := List.getElem?_eq_getElem hlt
  refine ⟨block.rows[number - 1], hget, fun column hcolumn => ?_⟩
  have hwhole : (block.rows ++ data)[number - 1]? = some block.rows[number - 1] := by
    rw [List.getElem?_append_left hlt, hget]
  have hcells := h.cells _ _ hwhole column hcolumn
  rwa [Nat.sub_add_cancel hpos] at hcells

theorem IsSheet.cellText_data (h : block.IsSheet data sheet) {index : Nat} {row : CellRow}
    (hget : data[index]? = some row) {column : Nat} (hcolumn : 0 < column) :
    sheet.cellText (block.rows.length + 1 + index) column = row column := by
  have hwhole : (block.rows ++ data)[block.rows.length + index]? = some row := by
    rw [List.getElem?_append_right (by omega), Nat.add_sub_cancel_left, hget]
  have hcells := h.cells _ _ hwhole column hcolumn
  rwa [Nat.add_right_comm] at hcells

/-- Worksheets with the same block read alike in its rows. -/
theorem IsSheet.alike (h : block.IsSheet data sheet) (hother : block.IsSheet others other)
    {columns otherColumns : Nat} (hcolumns : block.width ≤ columns)
    (hotherColumns : block.width ≤ otherColumns) (limit : Nat) :
    Alike block.rows.length sheet other (min columns limit) (min otherColumns limit) := by
  have hsame : ∀ row column, 0 < row → row ≤ block.rows.length → 0 < column →
      sheet.cellText row column = other.cellText row column := by
    intro row column hpos hle hcolumn
    obtain ⟨cells, hget, hcells⟩ := h.cellText_header hpos hle
    obtain ⟨otherCells, hotherGet, hotherCells⟩ := hother.cellText_header hpos hle
    rw [hget, Option.some.injEq] at hotherGet
    rw [hcells column hcolumn, hotherCells column hcolumn, hotherGet]
  constructor
  · intro row column hpos hle hcolumn _
    exact Worksheet.readFilled_congr (h.name.trans hother.name.symm)
      (congrArg _ (hsame row column hpos hle hcolumn))
  · intro row column hpos hle hmin hmax
    obtain ⟨cells, hget, hrow⟩ := h.cellText_header hpos hle
    have hcells := List.mem_of_getElem? hget
    obtain ⟨cell, hcell, hblank⟩ := block.blank cells hcells column (by omega)
    rw [Worksheet.readFilled_eq_of_cellText ((hrow column (by omega)).trans hcell), hblank]

/-- Reading header rows stops at data rows. -/
theorem IsSheet.scan_data (h : block.IsSheet data sheet) (hstops : rules.StopsAt data) :
    Header.scan rules sheet width data.length (block.rows.length + 1) header = .ok header := by
  cases data with
  | nil => rfl
  | cons row rest =>
    obtain ⟨cell, hcell, hkeyword⟩ := hstops row rfl
    have hread := @IsSheet.cellText_data _ _ _ h 0 row rfl Worksheet.markerColumn Nat.one_pos
    rw [List.length_cons, Header.scan_succ,
      Worksheet.readFilled_eq_of_cellText (hread.trans hcell)]
    simp only [Except.bind, hkeyword]

/-- Where reading header rows does not go on, there are data rows. -/
theorem IsSheet.stopsAt (h : block.IsSheet data sheet) (hrows : header.rows = block.rows.length)
    (hbounded : header.Bounded)
    (hscan : Header.scan rules sheet width data.length (block.rows.length + 1) header = .ok last)
    (hlast : last.rows = block.rows.length) : last = header ∧ rules.StopsAt data := by
  cases data with
  | nil => exact ⟨(Except.ok.inj hscan).symm, fun row hrow => nomatch hrow⟩
  | cons row rest =>
    have hread := @IsSheet.cellText_data _ _ _ h 0 row rfl Worksheet.markerColumn Nat.one_pos
    rw [Nat.add_zero] at hread
    rw [List.length_cons, Header.scan_succ] at hscan
    obtain ⟨found, hfound, hscan⟩ := bind_eq_ok.mp hscan
    obtain ⟨cell, hcell, rfl⟩ := Worksheet.cellText_of_readFilled hfound
    rw [hread] at hcell
    cases hkeyword : (cell.bind Text.filled?).bind (Header.keyword? rules.settings.marker) with
    | none =>
      simp only [hkeyword] at hscan
      refine ⟨(Except.ok.inj hscan).symm, ?_⟩
      intro first hfirst
      rw [List.head?_cons, Option.mem_some_iff] at hfirst
      exact ⟨cell, hfirst ▸ hcell, hkeyword⟩
    | some keyword =>
      simp only [hkeyword] at hscan
      obtain ⟨next, hadd, hscan⟩ := bind_eq_ok.mp hscan
      obtain ⟨hnext, hnextBounded⟩ := Header.addRow_eq_ok hadd (by omega) hbounded
      have hle := (Header.scan_eq_ok (by omega) hnextBounded hscan).1
      omega

theorem bounded_empty : Header.Bounded {} := fun _ h => nomatch h

/-- How the schema of a worksheet is read, if its header rows are those of the block. -/
theorem IsSheet.ofSheet_eq_ok (h : block.IsSheet data sheet) {schema : Schema}
    (hroom : block.rows.length + data.length ≤ rules.settings.maxRows)
    (hschema : Schema.ofSheet rules sheet = .ok schema)
    (hheader : schema.headerRows = block.rows.length) :
    ∃ columns header, block.width ≤ columns ∧ header.rows = block.rows.length ∧ header.Bounded ∧
      Header.scan rules sheet (min columns rules.settings.maxColumns) block.rows.length 1 {} =
        .ok header ∧ rules.StopsAt data ∧
      Schema.build rules sheet header (block.rows.length + data.length)
        (min columns rules.settings.maxColumns) = .ok schema := by
  obtain ⟨columns, hcolumns, hextent⟩ := h.extent
  obtain ⟨extent, last, hsame, hscan, hbuild⟩ := Schema.ofSheet_eq_ok hschema
  rw [hextent, Option.some.injEq] at hsame
  subst hsame
  rw [Nat.min_eq_left hroom] at hscan hbuild
  have hlast : last.rows = block.rows.length := by
    rw [← Schema.headerRows_of_build hbuild, hheader]
  rw [Header.scan_add rfl bounded_empty] at hscan
  obtain ⟨header, hhead, hscan⟩ := bind_eq_ok.mp hscan
  obtain ⟨-, hbounded⟩ := Header.scan_eq_ok rfl bounded_empty hhead
  by_cases hrows : header.rows + 1 = 1 + block.rows.length
  · rw [if_pos hrows, Nat.add_comm 1] at hscan
    obtain ⟨rfl, hstops⟩ := h.stopsAt (by omega) hbounded hscan hlast
    exact ⟨columns, last, hcolumns, hlast, hbounded, hhead, hstops, hbuild⟩
  · rw [if_neg hrows] at hscan
    have hsameLast := Except.ok.inj hscan
    rw [hsameLast] at hrows
    omega

/-- Worksheets with the same block have the same schema, but for the last row. -/
theorem ofSheet_of_isSheet {schema : Schema} (h : block.IsSheet data sheet)
    (hroom : block.rows.length + data.length ≤ rules.settings.maxRows)
    (hschema : Schema.ofSheet rules sheet = .ok schema)
    (hheader : schema.headerRows = block.rows.length) (hother : block.IsSheet others other)
    (hotherRoom : block.rows.length + others.length ≤ rules.settings.maxRows)
    (hstops : rules.StopsAt others) :
    Schema.ofSheet rules other =
      .ok { schema with rows := block.rows.length + others.length } := by
  obtain ⟨columns, header, hcolumns, hrows, hbounded, hscan, -, hbuild⟩ :=
    h.ofSheet_eq_ok hroom hschema hheader
  obtain ⟨otherColumns, hotherColumns, hextent⟩ := hother.extent
  have halike := h.alike hother hcolumns hotherColumns rules.settings.maxColumns
  have hotherScan : Header.scan rules other (min otherColumns rules.settings.maxColumns)
      (block.rows.length + others.length) 1 {} = .ok header := by
    rw [Header.scan_add rfl bounded_empty, ← halike.scan_eq rules {} Nat.one_pos (by omega), hscan]
    simp only [Except.bind]
    rw [if_pos (by omega), Nat.add_comm 1]
    exact hother.scan_data hstops
  have hotherBuild := halike.build_eq_ok hbounded (by omega) hbuild
    (block.rows.length + others.length)
  rw [Schema.ofSheet, hextent]
  show (Header.scan rules other _ (min (block.rows.length + others.length) _) 1 {}).bind _ = _
  rw [Nat.min_eq_left hotherRoom, hotherScan]
  exact hotherBuild

end HeaderBlock

end SheetCompiler
