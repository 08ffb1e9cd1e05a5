import Mathlib.Data.List.TakeWhile
import Mathlib.Logic.Equiv.Defs
import SheetCompiler.Proofs.Registration

/-!
# Columns in other places

`Rules.MovesColumns` says that one worksheet has the columns of another one in other places, each
with all its cells from the header to the last row that is looked at.  The marker column stays, and
so does what lies beyond the limits of the settings.  Any permutation of the columns in between will
do (`movesColumns_moveColumns`), and the columns can be moved back (`MovesColumns.symm`).

Both worksheets have the same header rows, since these are told by the marker column alone, and
every usable column is usable in its new place.  So the usable columns are the same up to their
places and their order (`MovesColumns.columns_perm`).
-/

namespace SheetCompiler

open scoped List

/-! ## Cells that read as the same value -/

theorem Text.filled?_of_isBlankText {text : String} (h : isBlankText text = true) :
    filled? text = none := by
  have hdrop : dropBlank text.toList = [] := by
    rw [dropBlank, List.dropWhile_eq_nil_iff]
    exact List.all_eq_true.mp h
  rw [filled?, trim, trimChars, hdrop]
  rfl

/-- What a header reads in a cell is told by the value of the cell. -/
theorem Record.filled?_eq (cell : Option String) :
    cell.bind Text.filled? = (ofCell cell).scalar?.bind Text.filled? := by
  cases cell with
  | none => rfl
  | some text =>
    rw [ofCell_some, Option.bind_some]
    split
    · rename_i hblank
      rw [Text.filled?_of_isBlankText hblank]
      rfl
    · rfl

/-! ## Columns in other places -/

namespace Column

/-- The same column in another place. -/
def moveTo (index : Nat) (column : Column) : Column := { column with index := index }

/-- The same column where a permutation of places takes it. -/
def moveBy (move : Equiv.Perm Nat) (column : Column) : Column := column.moveTo (move column.index)

end Column

namespace Rules

variable {rules : Rules} {move : Equiv.Perm Nat} {sheet other : Worksheet} {extent : Extent}

/-- A permutation of places that keeps the marker column and what lies beyond the limits. -/
structure KeepsEdges (rules : Rules) (move : Equiv.Perm Nat) (extent : Extent) : Prop where
  marker : ∀ column ≤ Worksheet.markerColumn, move column = column
  beyond : ∀ column, (rules.clip extent).columns < column → move column = column

/-- The other worksheet has the columns of the first one in other places.  A column takes all its
cells with it, as far as rows are looked at, and blank cells are all the same. -/
structure MovesColumns (rules : Rules) (move : Equiv.Perm Nat) (sheet other : Worksheet) :
    Prop where
  name : sheet.name = other.name
  extent : sheet.extent.map rules.clip = other.extent.map rules.clip
  edges : ∀ extent, sheet.extent = some extent → rules.KeepsEdges move extent
  cells : ∀ extent, sheet.extent = some extent → ∀ row column, rules.Reaches extent row column →
    (sheet.cellText row column).map Record.ofCell =
      (other.cellText row (move column)).map Record.ofCell

namespace KeepsEdges

theorem symm (h : rules.KeepsEdges move extent) : rules.KeepsEdges move.symm extent :=
  ⟨fun column hle => (Equiv.symm_apply_eq move).mpr (h.marker column hle).symm,
    fun column hlt => (Equiv.symm_apply_eq move).mpr (h.beyond column hlt).symm⟩

/-- The other places are permuted among themselves. -/
theorem between (h : rules.KeepsEdges move extent) {column : Nat}
    (hlow : Worksheet.markerColumn < column) (hhigh : column ≤ (rules.clip extent).columns) :
    Worksheet.markerColumn < move column ∧ move column ≤ (rules.clip extent).columns := by
  constructor
  · by_contra hle
    have hfixed := h.marker (move column) (Nat.le_of_not_lt hle)
    rw [move.injective hfixed] at hle
    exact hle hlow
  · by_contra hlt
    have hfixed := h.beyond (move column) (Nat.lt_of_not_le hlt)
    rw [move.injective hfixed] at hlt
    exact hlt hhigh

theorem reaches (h : rules.KeepsEdges move extent) {row column : Nat}
    (hreaches : rules.Reaches extent row column) : rules.Reaches extent row (move column) := by
  rcases Nat.lt_or_ge Worksheet.markerColumn column with hlow | hle
  · have hhigh : column ≤ (rules.clip extent).columns := by
      have hle := hreaches.column_le
      show column ≤ min extent.columns rules.settings.maxColumns
      omega
    obtain ⟨hmoveLow, hmoveHigh⟩ := h.between hlow hhigh
    exact ⟨hreaches.row_pos, hreaches.row_le, by omega,
      Nat.le_trans hmoveHigh (Nat.le_max_right _ _)⟩
  · rwa [h.marker column hle]

/-- The places to the right of the marker column, in another order. -/
theorem places_perm (h : rules.KeepsEdges move extent) :
    (rules.places extent).Perm ((rules.places extent).map move) := by
  have hnodup : (rules.places extent).Nodup := List.nodup_range'
  rw [List.perm_ext_iff_of_nodup hnodup ((List.nodup_map_iff move.injective).mpr hnodup)]
  intro column
  rw [List.mem_map, mem_places]
  constructor
  · rintro ⟨hlow, hhigh⟩
    exact ⟨move.symm column, mem_places.mpr (h.symm.between hlow hhigh),
      move.apply_symm_apply column⟩
  · rintro ⟨old, hold, rfl⟩
    obtain ⟨hlow, hhigh⟩ := mem_places.mp hold
    exact h.between hlow hhigh

end KeepsEdges

theorem clip_reaches {otherExtent : Extent} (h : rules.clip extent = rules.clip otherExtent)
    {row column : Nat} (hreaches : rules.Reaches extent row column) :
    rules.Reaches otherExtent row column := by
  rw [clip, clip, Extent.mk.injEq] at h
  refine ⟨hreaches.row_pos, ?_, hreaches.column_pos, ?_⟩
  · rw [← h.1]
    exact hreaches.row_le
  · rw [← h.2]
    exact hreaches.column_le

end Rules

/-- The worksheet with its columns in other places. -/
def Worksheet.moveColumns (move : Equiv.Perm Nat) (sheet : Worksheet) : Worksheet :=
  { sheet with
    rawCell := fun row column => sheet.cellText row (move.symm column)
    anchor := fun _ _ => none }

namespace Rules

variable {rules : Rules} {move : Equiv.Perm Nat} {sheet other : Worksheet} {extent : Extent}

/-- The columns of any worksheet can be moved. -/
theorem movesColumns_moveColumns
    (h : ∀ extent, sheet.extent = some extent → rules.KeepsEdges move extent) :
    rules.MovesColumns move sheet (sheet.moveColumns move) := by
  refine ⟨rfl, rfl, h, fun extent _ row column _ => ?_⟩
  show _ = (sheet.cellText row (move.symm (move column))).map Record.ofCell
  rw [move.symm_apply_apply]

namespace MovesColumns

/-- The other worksheet reaches as far. -/
theorem exists_extent (h : rules.MovesColumns move sheet other)
    (hextent : sheet.extent = some extent) :
    ∃ otherExtent, other.extent = some otherExtent ∧
      rules.clip extent = rules.clip otherExtent := by
  have hclip := h.extent
  rw [hextent, Option.map_some, eq_comm, Option.map_eq_some_iff] at hclip
  obtain ⟨otherExtent, hother, hsame⟩ := hclip
  exact ⟨otherExtent, hother, hsame.symm⟩

/-- The columns can be moved back. -/
theorem symm (h : rules.MovesColumns move sheet other) :
    rules.MovesColumns move.symm other sheet := by
  have hback : ∀ otherExtent, other.extent = some otherExtent → ∃ extent,
      sheet.extent = some extent ∧ rules.clip extent = rules.clip otherExtent := by
    intro otherExtent hother
    have hclip := h.extent
    rw [hother, Option.map_some, Option.map_eq_some_iff] at hclip
    exact hclip
  refine ⟨h.name.symm, h.extent.symm, fun otherExtent hother => ?_, ?_⟩
  · obtain ⟨extent, hextent, hclip⟩ := hback otherExtent hother
    have hedges := (h.edges extent hextent).symm
    exact ⟨hedges.marker, fun column hlt => hedges.beyond column (hclip ▸ hlt)⟩
  · intro otherExtent hother row column hreaches
    obtain ⟨extent, hextent, hclip⟩ := hback otherExtent hother
    have hmoved := (h.edges extent hextent).symm.reaches (clip_reaches hclip.symm hreaches)
    have hcells := h.cells extent hextent row (move.symm column) hmoved
    rw [move.apply_symm_apply] at hcells
    exact hcells.symm

/-- What can be read stays readable. -/
theorem canRead (h : rules.MovesColumns move sheet other) (hread : rules.CanRead sheet) :
    rules.CanRead other := by
  intro otherExtent hother row column hreaches
  obtain ⟨extent, hextent, hclip⟩ := h.symm.exists_extent hother
  have hmoved := (h.edges extent hextent).symm.reaches (clip_reaches hclip hreaches)
  have hcells := h.cells extent hextent row (move.symm column) hmoved
  obtain ⟨cell, hcell⟩ := hread extent hextent row (move.symm column) hmoved
  rw [move.apply_symm_apply, hcell] at hcells
  obtain ⟨found, hfound, -⟩ := map_eq_ok.mp hcells.symm
  exact ⟨found, hfound⟩

/-- A header cell reads the same in its new place. -/
theorem readFilled (h : rules.MovesColumns move sheet other) (hread : rules.CanRead sheet)
    (hextent : sheet.extent = some extent) {row column : Nat}
    (hreaches : rules.Reaches extent row column) :
    ∃ found, sheet.readFilled row column = .ok found ∧
      other.readFilled row (move column) = .ok found := by
  have hcells := h.cells extent hextent row column hreaches
  obtain ⟨cell, hcell⟩ := hread extent hextent row column hreaches
  rw [hcell] at hcells
  obtain ⟨found, hfound, hsame⟩ := map_eq_ok.mp hcells.symm
  refine ⟨_, Worksheet.readFilled_eq_of_cellText hcell, ?_⟩
  rw [Worksheet.readFilled_eq_of_cellText hfound, Record.filled?_eq, Record.filled?_eq cell, hsame]

end MovesColumns

end Rules

/-! ## The header rows -/

namespace Rules

/-- What a header row with a keyword adds to the rows with a recognized one. -/
def recognizedRow (rules : Rules) (row : Nat) (keyword : String) : List (Nat × String) :=
  if keyword.isEmpty then []
  else ((rules.recognize? keyword).map fun folded => (row, folded)).toList

end Rules

namespace Header

variable {rules : Rules} {sheet other : Worksheet} {columns otherColumns : Nat}

/-- Which rows have a recognized keyword does not depend on any cell but the one of the marker. -/
theorem keywordRows_of_addRow {row : Nat} {keyword : String} {header next : Header}
    (h : addRow rules sheet columns row keyword header = .ok next) :
    next.keywordRows = header.keywordRows ++ rules.recognizedRow row keyword := by
  rw [addRow] at h
  rw [Rules.recognizedRow]
  by_cases hempty : keyword.isEmpty = true
  · simp only [hempty, if_true] at h
    rw [← Except.ok.inj h, if_pos hempty, List.append_nil]
  · simp only [hempty, Bool.false_eq_true, if_false] at h
    rw [if_neg hempty]
    cases hrecognize : rules.recognize? keyword with
    | some folded =>
      simp only [hrecognize] at h
      rw [← Except.ok.inj h]
      rfl
    | none =>
      rw [Option.map_none, Option.toList_none, List.append_nil]
      simp only [hrecognize] at h
      split at h
      · rw [← Except.ok.inj h]
      · obtain ⟨found, -, h⟩ := bind_eq_ok.mp h
        cases found with
        | none => rw [← Except.ok.inj h]
        | some value => rw [← Except.ok.inj h]

/-- Worksheets with the same markers have the same rows with a recognized keyword. -/
theorem keywordRows_of_scan : ∀ {count row : Nat} {header otherHeader last otherLast : Header},
    (∀ index, row ≤ index → index < row + count →
      rules.keywordAt? sheet index = rules.keywordAt? other index) →
    header.keywordRows = otherHeader.keywordRows →
    scan rules sheet columns count row header = .ok last →
    scan rules other otherColumns count row otherHeader = .ok otherLast →
    last.keywordRows = otherLast.keywordRows
  | 0, _, _, _, _, _, _, hsame, h, hother => by
    rw [← Except.ok.inj h, ← Except.ok.inj hother, hsame]
  | count + 1, row, header, otherHeader, last, otherLast, hmarkers, hsame, h, hother => by
    rw [scan_succ] at h hother
    obtain ⟨cell, hread, h⟩ := bind_eq_ok.mp h
    obtain ⟨otherCell, hotherRead, hother⟩ := bind_eq_ok.mp hother
    have hkeyword := hmarkers row (Nat.le_refl _) (by omega)
    rw [Rules.keywordAt?_eq rules hread, Rules.keywordAt?_eq rules hotherRead] at hkeyword
    rw [← hkeyword] at hother
    cases hfound : cell.bind (keyword? rules.settings.marker) with
    | none =>
      simp only [hfound] at h hother
      rw [← Except.ok.inj h, ← Except.ok.inj hother, hsame]
    | some keyword =>
      simp only [hfound] at h hother
      obtain ⟨next, hadd, h⟩ := bind_eq_ok.mp h
      obtain ⟨otherNext, hotherAdd, hother⟩ := bind_eq_ok.mp hother
      have hnext : next.keywordRows = otherNext.keywordRows := by
        rw [keywordRows_of_addRow hadd, keywordRows_of_addRow hotherAdd, hsame]
      exact keywordRows_of_scan (fun index hlow hhigh => hmarkers index (by omega) (by omega))
        hnext h hother

/-- The rows with a recognized keyword are among those that are looked at. -/
theorem keywordRows_le_of_scan {count : Nat} {header : Header}
    (hscan : scan rules sheet columns count 1 {} = .ok header) :
    ∀ entry ∈ header.keywordRows, 0 < entry.1 ∧ entry.1 ≤ count := by
  intro entry hentry
  obtain ⟨-, hbounded⟩ := scan_eq_ok rfl HeaderBlock.bounded_empty hscan
  obtain ⟨hpos, hle⟩ := hbounded entry hentry
  have hrows : header.rows = 0 + (rules.keywordsOf sheet (List.range' 1 count)).length :=
    (keywords_of_scan rfl HeaderBlock.bounded_empty hscan).1
  have hlength := rules.length_keywordsOf_le sheet (List.range' 1 count)
  rw [List.length_range'] at hlength
  exact ⟨hpos, by omega⟩

end Header

namespace Rules.MovesColumns

variable {rules : Rules} {move : Equiv.Perm Nat} {sheet other : Worksheet}
  {extent otherExtent : Extent} {schema otherSchema : Schema}

theorem keywordAt?_eq (h : rules.MovesColumns move sheet other) (hread : rules.CanRead sheet)
    (hextent : sheet.extent = some extent) {row : Nat} (hpos : 0 < row)
    (hle : row ≤ (rules.clip extent).rows) :
    rules.keywordAt? sheet row = rules.keywordAt? other row := by
  have hreaches : rules.Reaches extent row Worksheet.markerColumn :=
    ⟨hpos, hle, Nat.one_pos, Nat.le_max_left _ _⟩
  obtain ⟨found, hfound, hother⟩ := h.readFilled hread hextent hreaches
  rw [(h.edges extent hextent).marker _ (Nat.le_refl _)] at hother
  rw [Rules.keywordAt?_eq rules hfound, Rules.keywordAt?_eq rules hother]

/-- Both worksheets have the same header rows. -/
theorem headerKeywords_eq (h : rules.MovesColumns move sheet other) (hread : rules.CanRead sheet)
    (hextent : sheet.extent = some extent) (hclip : rules.clip extent = rules.clip otherExtent) :
    rules.headerKeywords sheet extent = rules.headerKeywords other otherExtent := by
  have hrows : min extent.rows rules.settings.maxRows =
      min otherExtent.rows rules.settings.maxRows := congrArg Extent.rows hclip
  rw [headerKeywords, headerKeywords, ← hrows, keywordsOf, keywordsOf]
  rw [List.map_congr_left fun row hrow => h.keywordAt?_eq hread hextent ?_ ?_]
  · exact (List.mem_range'_1.mp hrow).1
  · have hlt := (List.mem_range'_1.mp hrow).2
    rw [clip]
    show row ≤ min extent.rows rules.settings.maxRows
    omega

/-- What the header says about a column it says in its new place. -/
theorem columnAt_eq (h : rules.MovesColumns move sheet other) (hread : rules.CanRead sheet)
    (hextent : sheet.extent = some extent) {header otherHeader : Header}
    (hrows : header.keywordRows = otherHeader.keywordRows)
    (hbounded : ∀ entry ∈ header.keywordRows, 0 < entry.1 ∧ entry.1 ≤ (rules.clip extent).rows)
    {index : Nat} (hpos : 0 < index) (hle : index ≤ (rules.clip extent).columns) :
    otherHeader.columnAt other (move index) = (header.columnAt sheet index).moveBy move := by
  have hcolumn : otherHeader.column other (move index) =
      (header.column sheet index).map (Column.moveTo (move index)) := by
    rw [Header.column, Header.column, ← hrows]
    refine foldlM_map (Column.moveTo (move index)) ?_ { index := index }
    intro entry hentry column
    obtain ⟨hrowPos, hrowLe⟩ := hbounded entry hentry
    obtain ⟨found, hfound, hother⟩ := h.readFilled hread hextent
      ⟨hrowPos, hrowLe, hpos, Nat.le_trans hle (Nat.le_max_right _ _)⟩
    rw [hfound, hother]
    cases found <;> rfl
  rw [Column.moveBy, Header.index_columnAt, Header.columnAt, Header.columnAt, hcolumn]
  cases header.column sheet index <;> rfl

/-- Both worksheets have the same usable columns up to their places. -/
theorem columns_perm (h : rules.MovesColumns move sheet other) (hread : rules.CanRead sheet)
    (hschema : Schema.ofSheet rules sheet = .ok schema)
    (hother : Schema.ofSheet rules other = .ok otherSchema) :
    otherSchema.columns.Perm (schema.columns.map (Column.moveBy move)) := by
  obtain ⟨extent, header, hextent, hscan, rfl⟩ := Schema.ofSheet_eq_ofColumns hschema
  obtain ⟨otherExtent, otherHeader, hotherExtent, hotherScan, rfl⟩ :=
    Schema.ofSheet_eq_ofColumns hother
  obtain ⟨found, hfound, hclip⟩ := h.exists_extent hextent
  obtain rfl := Option.some.inj (hotherExtent.symm.trans hfound)
  have hplaces : rules.places otherExtent = rules.places extent := by
    rw [places, places, hclip]
  have hrows : header.keywordRows = otherHeader.keywordRows := by
    rw [← hclip] at hotherScan
    refine Header.keywordRows_of_scan (fun row hlow hhigh => ?_) rfl hscan hotherScan
    exact h.keywordAt?_eq hread hextent hlow (by omega)
  have hbounded := Header.keywordRows_le_of_scan hscan
  have hmoved : (rules.places extent).map (otherHeader.columnAt other ∘ move) =
      (rules.places extent).map (Column.moveBy move ∘ header.columnAt sheet) := by
    refine List.map_congr_left fun index hindex => ?_
    obtain ⟨hlow, hhigh⟩ := mem_places.mp hindex
    exact h.columnAt_eq hread hextent hrows hbounded (Nat.zero_lt_of_lt hlow) hhigh
  -- a usable column stays usable, so it does not matter whether columns are moved or picked first
  have husable : rules.usable ∘ Column.moveBy move = rules.usable := rfl
  calc ((rules.places otherExtent).map (otherHeader.columnAt other)).filter rules.usable
    _ = ((rules.places extent).map (otherHeader.columnAt other)).filter rules.usable := by
      rw [hplaces]
    _ ~ (((rules.places extent).map move).map (otherHeader.columnAt other)).filter rules.usable :=
      (((h.edges extent hextent).places_perm).map _).filter _
    _ = (((rules.places extent).map (header.columnAt sheet)).filter rules.usable).map
          (Column.moveBy move) := by
      rw [List.map_map, hmoved, ← List.map_map, List.filter_map, husable]

end Rules.MovesColumns

end SheetCompiler
