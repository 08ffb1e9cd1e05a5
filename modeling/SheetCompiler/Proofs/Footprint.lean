import Mathlib.Control.Monad.Basic
import SheetCompiler.Proofs.Failure

/-!
# What is looked at in a worksheet

A compiler reads few of the cells of a worksheet, and of most of these not the whole text.
`Rules.SameFootprint` says that two worksheets read alike where it looks:

* in the header rows, as far as the limits of the settings go, white space around a text apart;
* in the marker column of the row below them, where only the marker counts;
* in the data rows, at the columns of the schema, blank cells being all the same.

A cell that cannot be read counts as a cell of its own.  Such worksheets compile to the same, or fail
for the same reason (`CompiledSheet.ofWorksheet_eq_of_sameFootprint`).  So nothing else in a
worksheet matters: no cell beyond the limits or in a column that was left out, no marker column below
the header, and no merged range but for what its cells read as.

The header rows are told by the first worksheet alone.  That the other one has the same is part of
what is proved: both are read in step through these rows (`Alike`), and both stop below them.
-/

namespace SheetCompiler

namespace Rules

/-- The part of an extent that is looked at. -/
def clip (rules : Rules) (extent : Extent) : Extent :=
  ⟨min extent.rows rules.settings.maxRows, min extent.columns rules.settings.maxColumns⟩

/-- The number of header rows. -/
def headerHeight (rules : Rules) (sheet : Worksheet) (extent : Extent) : Nat :=
  (rules.headerKeywords sheet extent).length

/-- Whether the cell of a row in the marker column begins with the marker. -/
def marks (rules : Rules) (sheet : Worksheet) (row : Nat) : Except CellFault Bool :=
  (sheet.cellText row Worksheet.markerColumn).map fun cell =>
    ((cell.bind Text.filled?).bind (Header.keyword? rules.settings.marker)).isSome

/-- Two worksheets read alike in their header rows and stop alike below them. -/
structure SameHeader (rules : Rules) (sheet other : Worksheet) : Prop where
  name : sheet.name = other.name
  extent : sheet.extent.map rules.clip = other.extent.map rules.clip
  cells : ∀ extent, sheet.extent = some extent → ∀ row column, 0 < row →
    row ≤ rules.headerHeight sheet extent → 0 < column →
    column ≤ max Worksheet.markerColumn (rules.clip extent).columns →
    (sheet.cellText row column).map (Option.bind · Text.filled?) =
      (other.cellText row column).map (Option.bind · Text.filled?)
  below : ∀ extent, sheet.extent = some extent →
    rules.headerHeight sheet extent < (rules.clip extent).rows →
    rules.marks sheet (rules.headerHeight sheet extent + 1) =
      rules.marks other (rules.headerHeight sheet extent + 1)

/-- Two worksheets read alike wherever they are looked at. -/
structure SameFootprint (rules : Rules) (sheet other : Worksheet) : Prop
    extends rules.SameHeader sheet other where
  data : ∀ schema, Schema.ofSheet rules sheet = .ok schema →
    ∀ row ∈ CompiledSheet.dataRows schema, ∀ column ∈ schema.columns,
      (sheet.cellText row column.index).map Record.ofCell =
        (other.cellText row column.index).map Record.ofCell

end Rules

/-! ## Reading alike -/

/-- What is the same in both header rows is the same in the schema. -/
theorem Alike.build_eq {rows width : Nat} {sheet other : Worksheet} {header : Header}
    (h : Alike rows sheet other width width) (hname : sheet.name = other.name)
    (hbounded : header.Bounded) (hrows : header.rows ≤ rows) (rules : Rules) (last : Nat) :
    Schema.build rules sheet header last width = Schema.build rules other header last width := by
  rw [Schema.build, Schema.build, hname]
  have hfold := @foldlM_congr _ _ _ (Schema.addColumn rules sheet header)
    (Schema.addColumn rules other header)
    (List.range' (Worksheet.markerColumn + 1) (width - Worksheet.markerColumn)) ?_
  · simp only [hfold]
  · intro index hindex schema
    rw [List.mem_range'_1, Worksheet.markerColumn] at hindex
    rw [Schema.addColumn, Schema.addColumn,
      h.column_eq hbounded hrows (by omega) (by omega)]

namespace Rules

variable {rules : Rules} {sheet other : Worksheet} {extent : Extent}

/-- The header rows are looked at. -/
theorem headerHeight_le (rules : Rules) (sheet : Worksheet) (extent : Extent) :
    rules.headerHeight sheet extent ≤ min extent.rows rules.settings.maxRows := by
  have hle := rules.length_keywordsOf_le sheet
    (List.range' 1 (min extent.rows rules.settings.maxRows))
  rwa [List.length_range'] at hle

/-- Below the header rows there is no keyword. -/
theorem keywordAt?_of_length_keywordsOf {count row : Nat}
    (h : (rules.keywordsOf sheet (List.range' row count)).length < count) :
    rules.keywordAt? sheet
      (row + (rules.keywordsOf sheet (List.range' row count)).length) = none := by
  induction count generalizing row with
  | zero => cases h
  | succ count ih =>
    rw [List.range'_succ] at h ⊢
    cases hkeyword : rules.keywordAt? sheet row with
    | none =>
      rw [keywordsOf_cons_of_none hkeyword]
      exact hkeyword
    | some keyword =>
      rw [keywordsOf_cons_of_some hkeyword, List.length_cons] at h ⊢
      rw [Nat.add_comm _ 1, ← Nat.add_assoc]
      exact ih (by omega)

theorem keywordAt?_eq_none_iff {row : Nat} :
    rules.keywordAt? sheet row = none ↔ rules.marks sheet row ≠ .ok true := by
  rw [keywordAt?, marks]
  cases sheet.cellText row Worksheet.markerColumn with
  | error fault =>
    refine ⟨fun _ h => ?_, fun _ => rfl⟩
    cases h
  | ok cell =>
    show (cell.bind Text.filled?).bind (Header.keyword? rules.settings.marker) = none ↔
      Except.ok (((cell.bind Text.filled?).bind (Header.keyword? rules.settings.marker)).isSome) ≠
        Except.ok true
    cases (cell.bind Text.filled?).bind (Header.keyword? rules.settings.marker) <;> simp

end Rules

/-- Reading header rows stops at a row that is not marked, or fails there. -/
theorem Header.scan_succ_of_unmarked {rules : Rules} {sheet : Worksheet} {row : Nat}
    (h : rules.keywordAt? sheet row = none) (columns count : Nat) (header : Header) :
    Header.scan rules sheet columns (count + 1) row header =
      match rules.marks sheet row with
      | .ok _ => .ok header
      | .error fault =>
        .error (.unreadableCell sheet.name row Worksheet.markerColumn fault.reason) := by
  rw [Rules.keywordAt?] at h
  rw [Header.scan_succ, Worksheet.readFilled, Worksheet.read, Rules.marks]
  cases hcell : sheet.cellText row Worksheet.markerColumn with
  | error fault => rfl
  | ok cell =>
    rw [hcell] at h
    change (cell.bind Text.filled?).bind (Header.keyword? rules.settings.marker) = none at h
    simp only [bind, Except.bind, pure, Except.pure, h]
    rfl

namespace Rules

variable {rules : Rules} {sheet other : Worksheet} {extent : Extent}

namespace SameHeader

theorem alike (h : rules.SameHeader sheet other) (hextent : sheet.extent = some extent) :
    Alike (rules.headerHeight sheet extent) sheet other (rules.clip extent).columns
      (rules.clip extent).columns := by
  refine ⟨fun row column hrow hrows hcolumn hle => ?_, fun _ _ _ _ hmin hmax => by omega⟩
  rw [Nat.max_self] at hle
  exact Worksheet.readFilled_congr h.name
    (h.cells extent hextent row column hrow hrows hcolumn hle)

/-- Both worksheets stop below the header rows, or neither can be read there. -/
theorem scan_below (h : rules.SameHeader sheet other) (hextent : sheet.extent = some extent)
    {count : Nat} (hcount : rules.headerHeight sheet extent + count = (rules.clip extent).rows)
    (header : Header) (columns : Nat) :
    Header.scan rules sheet columns count (rules.headerHeight sheet extent + 1) header =
      Header.scan rules other columns count (rules.headerHeight sheet extent + 1) header := by
  cases count with
  | zero => rfl
  | succ count =>
    have hlt : rules.headerHeight sheet extent < (rules.clip extent).rows := by omega
    have hmarks := h.below extent hextent hlt
    have hsheet : rules.keywordAt? sheet (rules.headerHeight sheet extent + 1) = none := by
      rw [Nat.add_comm]
      exact keywordAt?_of_length_keywordsOf hlt
    have hother : rules.keywordAt? other (rules.headerHeight sheet extent + 1) = none := by
      rw [keywordAt?_eq_none_iff, ← hmarks, ← keywordAt?_eq_none_iff, hsheet]
    rw [Header.scan_succ_of_unmarked hsheet, Header.scan_succ_of_unmarked hother, hmarks, h.name]

/-- Both worksheets have the same header rows. -/
theorem scan_eq (h : rules.SameHeader sheet other) (hextent : sheet.extent = some extent) :
    Header.scan rules sheet (rules.clip extent).columns (rules.clip extent).rows 1 {} =
      Header.scan rules other (rules.clip extent).columns (rules.clip extent).rows 1 {} := by
  have hheight : rules.headerHeight sheet extent ≤ (rules.clip extent).rows :=
    rules.headerHeight_le sheet extent
  obtain ⟨more, hmore⟩ := Nat.exists_eq_add_of_le hheight
  have hhead : Header.scan rules sheet (rules.clip extent).columns
      (rules.headerHeight sheet extent) 1 {} = Header.scan rules other (rules.clip extent).columns
      (rules.headerHeight sheet extent) 1 {} :=
    (h.alike hextent).scan_eq rules {} Nat.one_pos (by omega)
  rw [hmore, Header.scan_add rfl HeaderBlock.bounded_empty,
    Header.scan_add rfl HeaderBlock.bounded_empty, hhead, Nat.add_comm 1]
  simp only [h.scan_below hextent hmore.symm]

/-- Both worksheets have the same schema, or fail for the same reason. -/
theorem ofSheet_eq (h : rules.SameHeader sheet other) :
    Schema.ofSheet rules sheet = Schema.ofSheet rules other := by
  have hclip := h.extent
  rw [Schema.ofSheet, Schema.ofSheet]
  cases hextent : sheet.extent with
  | none =>
    rw [hextent, Option.map_none, eq_comm, Option.map_eq_none_iff] at hclip
    rw [hclip, h.name]
  | some extent =>
    rw [hextent, Option.map_some, eq_comm, Option.map_eq_some_iff] at hclip
    obtain ⟨otherExtent, hother, hsame⟩ := hclip
    rw [hother]
    show (Header.scan rules sheet (rules.clip extent).columns (rules.clip extent).rows 1 {}).bind
        (fun header => Schema.build rules sheet header (rules.clip extent).rows
          (rules.clip extent).columns) =
      (Header.scan rules other (rules.clip otherExtent).columns
        (rules.clip otherExtent).rows 1 {}).bind
        (fun header => Schema.build rules other header (rules.clip otherExtent).rows
          (rules.clip otherExtent).columns)
    rw [hsame]
    cases hscan : Header.scan rules sheet (rules.clip extent).columns
      (rules.clip extent).rows 1 {} with
    | error fault =>
      rw [← h.scan_eq hextent, hscan]
      rfl
    | ok header =>
      obtain ⟨-, hbounded⟩ := Header.scan_eq_ok rfl HeaderBlock.bounded_empty hscan
      have hrows := (Header.keywords_of_scan rfl HeaderBlock.bounded_empty hscan).1
      rw [← h.scan_eq hextent, hscan]
      refine (h.alike hextent).build_eq h.name hbounded ?_ rules _
      rw [hrows]
      exact Nat.le_of_eq (Nat.zero_add _)

end SameHeader

end Rules

/-! ## Data rows -/

namespace Record

variable {sheet other : Worksheet} {columns : List Column} {row : Nat}

/-- What is added for a cell is told by what it reads as. -/
theorem addCell_eq (sheet : Worksheet) (row : Nat) (record : Record) (column : Column) :
    addCell sheet row record column =
      if column.segments.isEmpty then .error (.emptyFieldPath sheet.name row column.index)
      else
        (((sheet.cellText row column.index).map ofCell).mapError fun fault =>
          .unreadableCell sheet.name row column.index fault.reason).bind fun cell =>
            (place cell column.segments record).elim
              (.error (.pathConflict sheet.name row column.index column.path)) .ok := by
  rw [addCell, Worksheet.read_eq_mapError]
  split
  · rfl
  · cases sheet.cellText row column.index with
    | error fault => rfl
    | ok text =>
      dsimp only [Except.map, Except.mapError, Except.bind, bind, pure]
      cases place (ofCell text) column.segments record <;> rfl

/-- Cells that read alike are placed alike. -/
theorem addCell_congr {column : Column} (hname : sheet.name = other.name)
    (h : (sheet.cellText row column.index).map ofCell =
      (other.cellText row column.index).map ofCell) (record : Record) :
    addCell sheet row record column = addCell other row record column := by
  rw [addCell_eq, addCell_eq, h, hname]

theorem ofRow_congr (hname : sheet.name = other.name)
    (h : ∀ column ∈ columns, (sheet.cellText row column.index).map ofCell =
      (other.cellText row column.index).map ofCell) :
    ofRow sheet columns row = ofRow other columns row :=
  foldlM_congr (fun column hcolumn => addCell_congr hname (h column hcolumn)) []

end Record

namespace CompiledSheet

variable {rules : Rules} {sheet other : Worksheet}

theorem rawRows_congr {columns : List Column} {rows : List Nat}
    (h : ∀ row ∈ rows, Record.ofRow sheet columns row = Record.ofRow other columns row) :
    rawRows sheet columns rows = rawRows other columns rows := by
  induction rows with
  | nil => rfl
  | cons row rows ih =>
    obtain ⟨hrow, hrows⟩ := List.forall_mem_cons.mp h
    rw [rawRows_cons, rawRows_cons, hrow, ih hrows]

/-- Worksheets that read alike where they are looked at compile to the same, or fail for the same
reason. -/
theorem ofWorksheet_eq_of_sameFootprint (h : rules.SameFootprint sheet other) :
    ofWorksheet rules sheet = ofWorksheet rules other := by
  cases hschema : Schema.ofSheet rules sheet with
  | error fault =>
    rw [ofWorksheet, ofWorksheet, ← h.ofSheet_eq, hschema]
    rfl
  | ok schema =>
    have hother : Schema.ofSheet rules other = .ok schema := by rw [← h.ofSheet_eq, hschema]
    rw [ofWorksheet_eq hschema, ofWorksheet_eq hother, h.name,
      rawRows_congr fun row hrow => Record.ofRow_congr h.name (h.data schema hschema row hrow)]

/-- Grids have the same header if their cells say so as far as the header rows go. -/
theorem sameHeader_grid {grid other : Grid} {height width : Nat} (hname : grid.name = other.name)
    (hclip : rules.clip grid.extent = rules.clip other.extent)
    (hheight : rules.headerHeight grid.worksheet grid.extent = height)
    (hwidth : max Worksheet.markerColumn (rules.clip grid.extent).columns = width)
    (hcells : ∀ row ∈ List.range' 1 height, ∀ column ∈ List.range' 1 width,
      (grid.worksheet.cellText row column).map (Option.bind · Text.filled?) =
        (other.worksheet.cellText row column).map (Option.bind · Text.filled?))
    (hbelow : rules.marks grid.worksheet (height + 1) = rules.marks other.worksheet (height + 1)) :
    rules.SameHeader grid.worksheet other.worksheet := by
  refine ⟨hname, ?_, ?_, ?_⟩
  · rw [Grid.worksheet_extent, Grid.worksheet_extent, Option.map_some, Option.map_some, hclip]
  · intro extent hextent row column hrow hheader hcolumn hlast
    obtain rfl := Option.some.inj hextent
    rw [hheight] at hheader
    rw [hwidth] at hlast
    exact hcells row (List.mem_range'_1.mpr ⟨hrow, by omega⟩) column
      (List.mem_range'_1.mpr ⟨hcolumn, by omega⟩)
  · intro extent hextent _
    obtain rfl := Option.some.inj hextent
    rw [hheight, hbelow]

/-- Two owners of a sword, as a merged range.  There is a note that has no type. -/
def swords : Grid where
  name := "Swords"
  rows := [
    ["#var", "Owner", "Note", "Items"],
    ["#type", "string", "", "list"],
    ["", "Ann", "old", "Sword"],
    ["", "", "", ""]]
  merged := [⟨3, 4, 4, 4⟩]

/-- The same without the merged range: wider, longer, with other notes and with marked data rows. -/
def swordsElsewhere : Grid where
  name := "Swords"
  rows := [
    [" #var", "Owner ", "Note", "Items", "Price"],
    ["#type", " string", " ", "list", "int"],
    ["x", "Ann", "new", "Sword", "5"],
    ["#note", " ", "lost", "Sword"],
    ["", "Zoe", "", "Bow"]]

/-- What both make, looked at as far as their fourth row and column. -/
def swordRecords : List Record :=
  [[("Owner", .scalar "Ann"), ("Items", .list [.scalar "Sword", .scalar "Sword"])]]

/-- The two worksheets read alike within these limits and compile to the same record. -/
theorem swords_eq_swordsElsewhere : ∃ rules compiled,
    Rules.ofSettings { maxRows := 4, maxColumns := 4 } = .ok rules ∧
    rules.SameFootprint swords.worksheet swordsElsewhere.worksheet ∧
    ofWorksheet rules swords.worksheet = .ok compiled ∧
    ofWorksheet rules swordsElsewhere.worksheet = .ok compiled ∧
    compiled.records = swordRecords := by
  have hsome : ((Rules.ofSettings { maxRows := 4, maxColumns := 4 }).toOption.bind fun rules =>
      (Schema.ofSheet rules swords.worksheet).toOption.bind fun schema =>
        (ofWorksheet rules swords.worksheet).toOption.map fun compiled =>
          (rules.clip swords.extent, rules.headerHeight swords.worksheet swords.extent,
            dataRows schema, schema.columns.map Column.index,
            decide (rules.clip swords.extent = rules.clip swordsElsewhere.extent ∧
              rules.marks swords.worksheet 3 = rules.marks swordsElsewhere.worksheet 3 ∧
              compiled.records = swordRecords))) =
      some (⟨4, 4⟩, 2, [3, 4], [2, 4], true) := by
    decide +kernel
  obtain ⟨rules, hrules, hsome⟩ := Option.bind_eq_some_iff.mp hsome
  obtain ⟨schema, hschema, hsome⟩ := Option.bind_eq_some_iff.mp hsome
  obtain ⟨compiled, hcompiled, hfacts⟩ := Option.map_eq_some_iff.mp hsome
  simp only [Prod.mk.injEq, decide_eq_true_eq] at hfacts
  obtain ⟨hclip, hheight, hrows, hcolumns, hother, hmarks, hrecords⟩ := hfacts
  have hwidth : max Worksheet.markerColumn (rules.clip swords.extent).columns = 4 := by
    rw [hclip]
    rfl
  have hfootprint : rules.SameFootprint swords.worksheet swordsElsewhere.worksheet := by
    refine ⟨sameHeader_grid rfl hother hheight hwidth (by decide +kernel) hmarks, ?_⟩
    intro found hfound row hrow column hcolumn
    rw [eq_ok_of_toOption hschema, Except.ok.injEq] at hfound
    subst hfound
    have hindex : column.index ∈ schema.columns.map Column.index := List.mem_map_of_mem hcolumn
    rw [hcolumns] at hindex
    rw [hrows] at hrow
    have hcells : ∀ row ∈ [3, 4], ∀ column ∈ [2, 4],
        (swords.worksheet.cellText row column).map Record.ofCell =
          (swordsElsewhere.worksheet.cellText row column).map Record.ofCell := by
      decide +kernel
    exact hcells row hrow column.index hindex
  have hboth := ofWorksheet_eq_of_sameFootprint hfootprint
  have hcompiled := eq_ok_of_toOption hcompiled
  exact ⟨rules, compiled, eq_ok_of_toOption hrules, hfootprint, hcompiled, hboth ▸ hcompiled,
    hrecords⟩

end CompiledSheet

end SheetCompiler
