import SheetCompiler.Proofs.Boundaries

/-!
# Rows beyond the limit

The settings say how many rows of a worksheet are looked at.  A worksheet that is clipped there
compiles to the same (`CompiledSheet.ofWorksheet_clip`), whatever it holds further down.

`HeaderBlock.Yields` says what data rows below a header block compile to, however many of them there
are.  Clipped to the limit it is `HeaderBlock.Compiles` (`HeaderBlock.Yields.clip`); and where the
limit cuts off the header block itself, there is no data row left (`HeaderBlock.Yields.eq_nil`).
-/

namespace SheetCompiler

/-! ## Clipped worksheets -/

/-- The worksheet without the rows from some number on, as far as its extent says. -/
def Worksheet.clip (limit : Nat) (sheet : Worksheet) : Worksheet :=
  { sheet with extent := sheet.extent.map fun extent => ⟨min extent.rows limit, extent.columns⟩ }

variable {rules : Rules} {sheet : Worksheet}

theorem Worksheet.alike_clip (sheet : Worksheet) (limit rows width : Nat) :
    Alike rows (sheet.clip limit) sheet width width := by
  refine ⟨fun _ _ _ _ _ _ => rfl, fun _ _ _ _ hmin hmax => ?_⟩
  omega

/-- The header of a worksheet does not lie beyond the limit of its settings. -/
theorem Schema.ofSheet_clip (rules : Rules) (sheet : Worksheet) :
    Schema.ofSheet rules (sheet.clip rules.settings.maxRows) = Schema.ofSheet rules sheet := by
  rw [Schema.ofSheet, Schema.ofSheet]
  cases hextent : sheet.extent with
  | none =>
    have hclip : (sheet.clip rules.settings.maxRows).extent = none := by
      rw [Worksheet.clip, hextent, Option.map_none]
    rw [hclip]
    rfl
  | some extent =>
    have hclip : (sheet.clip rules.settings.maxRows).extent =
        some ⟨min extent.rows rules.settings.maxRows, extent.columns⟩ := by
      rw [Worksheet.clip, hextent, Option.map_some]
    have halike := sheet.alike_clip rules.settings.maxRows
      (min extent.rows rules.settings.maxRows) (min extent.columns rules.settings.maxColumns)
    have hscan := halike.scan_eq rules {} Nat.one_pos (Nat.le_of_eq (Nat.add_comm 1 _))
    rw [hclip]
    simp only [Nat.min_assoc, Nat.min_self]
    rw [hscan]
    rfl

/-- Rows beyond the limit are not looked at. -/
theorem CompiledSheet.ofWorksheet_clip (rules : Rules) (sheet : Worksheet) :
    ofWorksheet rules (sheet.clip rules.settings.maxRows) = ofWorksheet rules sheet := by
  rw [ofWorksheet, ofWorksheet, Schema.ofSheet_clip]
  rfl

theorem Schema.rows_of_build {header : Header} {rows columns : Nat} {schema : Schema}
    (h : build rules sheet header rows columns = .ok schema) : schema.rows = rows := by
  obtain ⟨-, -, -, hfold⟩ := Schema.build_eq_ok h
  refine foldlM_preserves (fun schema => schema.rows = rows) ?_ rfl hfold
  intro before index _ after hbefore hstep
  obtain ⟨column, -, rfl⟩ := addColumn_eq_ok hstep
  split
  · exact hbefore
  · exact hbefore

/-! ## Any number of data rows -/

namespace HeaderBlock

open CompiledSheet (ofWorksheet ofWorksheet_clip ofWorksheet_eq_ok dataRows)

/-- Some data rows below the block compile to some records.  Header and data rows may go beyond the
rows that are looked at. -/
structure Yields (rules : Rules) (block : HeaderBlock) (data : List CellRow) (sheet : Worksheet)
    (records : List Record) : Prop where
  isSheet : block.IsSheet data sheet
  header : ∃ schema, Schema.ofSheet rules sheet = .ok schema ∧
    schema.headerRows = min block.rows.length rules.settings.maxRows
  compiled : (ofWorksheet rules sheet).toOption.map CompiledSheet.records = some records

variable {block : HeaderBlock} {data : List CellRow} {records : List Record}

theorem Compiles.yields (h : block.Compiles rules data sheet records) :
    block.Yields rules data sheet records := by
  obtain ⟨schema, hschema, hheader⟩ := h.header
  have hroom := h.room
  exact ⟨h.isSheet, ⟨schema, hschema, by rw [hheader]; omega⟩, h.compiled⟩

/-- A worksheet with the block, clipped below its header rows, has the block and the first of its
data rows. -/
theorem IsSheet.clip (h : block.IsSheet data sheet) {limit : Nat}
    (hlimit : block.rows.length ≤ limit) :
    block.IsSheet (data.take (limit - block.rows.length)) (sheet.clip limit) := by
  refine ⟨h.name, ?_, ?_⟩
  · obtain ⟨columns, hcolumns, hextent⟩ := h.extent
    refine ⟨columns, hcolumns, ?_⟩
    have hrows : min (block.rows.length + data.length) limit =
        block.rows.length + min (limit - block.rows.length) data.length := by
      omega
    rw [Worksheet.clip, hextent, Option.map_some, List.length_take, hrows]
  · intro index row hget column hcolumn
    have hwhole : block.rows ++ data.take (limit - block.rows.length) =
        (block.rows ++ data).take limit := by
      rw [List.take_append, List.take_of_length_le hlimit]
    rw [hwhole, List.getElem?_take] at hget
    split at hget
    · exact h.cells index row hget column hcolumn
    · cases hget

/-- Data rows that are looked at, as they are compiled without the others. -/
theorem Yields.clip (h : block.Yields rules data sheet records)
    (hlimit : block.rows.length ≤ rules.settings.maxRows) :
    block.Compiles rules (data.take (rules.settings.maxRows - block.rows.length))
      (sheet.clip rules.settings.maxRows) records := by
  obtain ⟨schema, hschema, hheader⟩ := h.header
  refine ⟨h.isSheet.clip hlimit, ?_, ⟨schema, ?_, ?_⟩, ?_⟩
  · rw [List.length_take]
    omega
  · rw [Schema.ofSheet_clip, hschema]
  · rw [hheader, Nat.min_eq_left hlimit]
  · rw [ofWorksheet_clip, h.compiled]

/-- Where not even the header rows are looked at, there are no records. -/
theorem Yields.eq_nil (h : block.Yields rules data sheet records)
    (hlimit : rules.settings.maxRows < block.rows.length) : records = [] := by
  obtain ⟨schema, hschema, hheader⟩ := h.header
  obtain ⟨compiled, hcompiled, rfl⟩ := Option.map_eq_some_iff.mp h.compiled
  obtain ⟨raws, hraws, hrecords⟩ := ofWorksheet_eq_ok hschema (eq_ok_of_toOption hcompiled)
  obtain ⟨extent, header, -, -, hbuild⟩ := Schema.ofSheet_eq_ok hschema
  have hrows : schema.rows - schema.headerRows = 0 := by
    rw [Schema.rows_of_build hbuild, hheader]
    omega
  rw [dataRows, hrows, List.range'_zero] at hraws
  rw [hrecords, ← Except.ok.inj hraws]
  rfl

end HeaderBlock

end SheetCompiler
