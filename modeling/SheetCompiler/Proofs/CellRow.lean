import SheetCompiler.Proofs.CellOrder

/-!
# Rows of cells

A row of a worksheet matters only by its cells.  `CellRow` is such a row without its place in a
worksheet, and `CellRow.record?` the record that it makes wherever it stands (`record?_of_cells`).

What a row does to the records can be told from its cells: it is skipped if every effective cell is
blank (`fieldsEmpty_ofRow`), and it starts a record if one that is filled belongs to no list
(`continues_ofRow`).  Where several columns share their segments, the cell of the last one is
effective.
-/

namespace SheetCompiler

/-- The cells of a row by column, as they read. -/
abbrev CellRow := Nat → Except CellFault (Option String)

namespace Column

/-- The columns whose cells are effective: the last ones with their segments. -/
def effective : List Column → List Column
  | [] => []
  | column :: rest =>
    if rest.any fun later => later.segments == column.segments then effective rest
    else column :: effective rest

/-- The effective columns are those without a later column for the same segments. -/
theorem mem_effective_iff {column : Column} {columns : List Column} :
    column ∈ effective columns ↔ column.LastIn columns := by
  induction columns with
  | nil =>
    constructor
    · intro h
      exact absurd h List.not_mem_nil
    · intro h
      exact absurd h.mem List.not_mem_nil
  | cons first rest ih =>
    have hlater : (rest.any fun later => later.segments == first.segments) = true ↔
        ∃ later ∈ rest, later.segments = first.segments := by
      simp only [List.any_eq_true, beq_iff_eq]
    have hrest : column.LastIn rest → column.LastIn (first :: rest) := by
      rintro ⟨front, back, rfl, hback⟩
      exact ⟨first :: front, back, rfl, hback⟩
    have hsplit : column.LastIn (first :: rest) → column.LastIn rest ∨
        column = first ∧ ∀ later ∈ rest, later.segments ≠ column.segments := by
      rintro ⟨front, back, hwhole, hback⟩
      cases front with
      | nil =>
        obtain ⟨rfl, rfl⟩ := List.cons.inj hwhole
        exact Or.inr ⟨rfl, hback⟩
      | cons other front =>
        obtain ⟨-, rfl⟩ := List.cons.inj hwhole
        exact Or.inl ⟨front, back, rfl, hback⟩
    rw [effective]
    by_cases hany : (rest.any fun later => later.segments == first.segments) = true
    · rw [if_pos hany, ih]
      obtain ⟨later, hmem, hsame⟩ := hlater.mp hany
      refine ⟨hrest, fun h => (hsplit h).resolve_right ?_⟩
      rintro ⟨rfl, hnone⟩
      exact hnone later hmem hsame
    · rw [if_neg hany, List.mem_cons, ih]
      constructor
      · rintro (rfl | h)
        · exact ⟨[], rest, rfl, fun later hmem hsame => hany (hlater.mpr ⟨later, hmem, hsame⟩)⟩
        · exact hrest h
      · intro h
        rcases hsplit h with h | ⟨rfl, -⟩
        · exact Or.inr h
        · exact Or.inl rfl

end Column

namespace CellRow

/-- Whether a cell is not blank. -/
def filled (row : CellRow) (column : Nat) : Bool :=
  match row column with
  | .ok (some text) => !Text.isBlankText text
  | _ => false

/-- Whether every effective cell is blank. -/
def isBlank (columns : List Column) (row : CellRow) : Bool :=
  (Column.effective columns).all fun column => !row.filled column.index

/-- Whether some effective cell is filled that belongs to no list. -/
def starts (layout : Layout) (row : CellRow) : Bool :=
  (Column.effective layout.schema.columns).any fun column =>
    row.filled column.index && column.segments.head?.any fun name => !layout.isList name

/-- The record of a row, if its cells can be read and placed. -/
def record? (columns : List Column) (row : CellRow) : Option Record :=
  columns.foldlM (fun record column => (row column.index).toOption.bind fun text =>
    Record.place (Record.ofCell text) column.segments record) []

end CellRow

/-! ## Rows of a worksheet -/

namespace Record

variable {sheet : Worksheet} {number : Nat} {row : CellRow}

theorem toOption_addCell {column : Column}
    (hcell : sheet.cellText number column.index = row column.index) (record : Record) :
    (addCell sheet number record column).toOption =
      (row column.index).toOption.bind fun text => place (ofCell text) column.segments record := by
  have hread : (sheet.read number column.index).toOption = (row column.index).toOption := by
    rw [Worksheet.read, ← hcell]
    cases sheet.cellText number column.index <;> rfl
  rw [← hread, addCell]
  by_cases hempty : column.segments.isEmpty = true
  · rw [if_pos hempty]
    have hnil := List.isEmpty_iff.mp hempty
    cases sheet.read number column.index with
    | error fault => rfl
    | ok text => rw [hnil]; rfl
  · rw [if_neg hempty]
    cases sheet.read number column.index with
    | error fault => rfl
    | ok text =>
      simp only [bind, Except.bind, Except.toOption, Option.bind_some]
      cases place (ofCell text) column.segments record <;> rfl

/-- The record of a worksheet row depends on its cells only. -/
theorem toOption_ofRow {columns : List Column}
    (hcells : ∀ column ∈ columns, sheet.cellText number column.index = row column.index) :
    (ofRow sheet columns number).toOption = row.record? columns :=
  toOption_foldlM (fun column hcolumn => toOption_addCell (hcells column hcolumn)) []

/-! ## What a row does to the records -/

section

open Value (IsRaw found found_null found_nil_scalar found_record_of_get?)

variable {outline : Outline}

/-- A raw value is filled exactly when one of its paths leads to something. -/
theorem filled_iff_found {value : Value} (h : IsRaw outline value) (hne : outline ≠ []) :
    value.isEmpty = false ↔ ∃ names ∈ outline, found names value ≠ [] := by
  constructor
  · intro hfilled
    induction h with
    | @cell outline value hleaf hcell =>
      obtain ⟨names, hnames⟩ := List.exists_mem_of_ne_nil _ hne
      refine ⟨names, hnames, ?_⟩
      rw [hleaf names hnames]
      cases value with
      | null => cases hfilled
      | scalar text =>
        rw [found_nil_scalar]
        exact List.cons_ne_nil _ _
      | record fields => exact hcell.elim
      | list items => exact hcell.elim
    | @record outline fields hbranch hnames hfields ih =>
      have hraw := IsRaw.record hbranch hnames hfields
      rw [Value.isEmpty_record, ← Bool.not_eq_true, Value.fieldsEmpty_iff] at hfilled
      simp only [not_forall, Bool.not_eq_true] at hfilled
      obtain ⟨field, hfield, hfieldFilled⟩ := hfilled
      obtain ⟨rest, hrest, hfound⟩ := ih field hfield (hraw.below_ne_nil hfield) hfieldFilled
      refine ⟨field.1 :: rest, Outline.mem_below.mp hrest, ?_⟩
      rwa [found_record_of_get? (Entries.get?_of_mem hraw.nodup hfield)]
  · rintro ⟨names, hnames, hfound⟩
    refine Bool.eq_false_iff.mpr fun hempty => ?_
    exact hfound (found_of_isEmpty h hnames hempty)

theorem fieldsEmpty_eq_false_iff {raw : Record} (h : IsRaw outline (.record raw)) :
    Value.fieldsEmpty raw = false ↔ ∃ names ∈ outline, found names (.record raw) ≠ [] := by
  by_cases hne : outline = []
  · have hnames := h.names_eq
    rw [hne, Outline.names_nil, Entries.names, List.map_eq_nil_iff] at hnames
    rw [hnames, hne]
    simp
  · exact filled_iff_found h hne

/-- An effective cell is what its path leads to. -/
theorem found_ne_nil_iff {columns : List Column} {raw : Record}
    (h : ofRow sheet columns number = .ok raw) {column : Column} (hlast : column.LastIn columns)
    (hcell : sheet.cellText number column.index = row column.index) :
    found column.segments (.record raw) ≠ [] ↔ row.filled column.index = true := by
  rw [CompiledSheet.found_ofRow h hlast, ne_eq, List.map_eq_nil_iff, CompiledSheet.filledCells,
    List.filterMap_cons, List.filterMap_nil, hcell, CellRow.filled]
  cases row column.index with
  | error fault => simp
  | ok cell =>
    cases cell with
    | none => simp
    | some text => cases hblank : Text.isBlankText text <;> simp [hblank]

/-- A row is skipped exactly when it is blank. -/
theorem fieldsEmpty_ofRow {columns : List Column} {raw : Record}
    (h : ofRow sheet columns number = .ok raw)
    (hcells : ∀ column ∈ columns, sheet.cellText number column.index = row column.index) :
    Value.fieldsEmpty raw = row.isBlank columns := by
  rw [← Bool.not_inj_iff, Bool.eq_iff_iff, Bool.not_eq_true',
    fieldsEmpty_eq_false_iff (isRaw_ofRow h), CellRow.isBlank, List.not_all_eq_any_not,
    List.any_eq_true]
  simp only [Bool.not_not]
  constructor
  · rintro ⟨names, hnames, hfound⟩
    obtain ⟨column, hcolumn, rfl⟩ := List.mem_map.mp hnames
    obtain ⟨last, hlast, hsame⟩ := Column.exists_lastIn hcolumn
    rw [← hsame, found_ne_nil_iff h hlast (hcells last hlast.mem)] at hfound
    exact ⟨last, Column.mem_effective_iff.mpr hlast, hfound⟩
  · rintro ⟨column, hcolumn, hfilled⟩
    have hlast := Column.mem_effective_iff.mp hcolumn
    refine ⟨column.segments, List.mem_map_of_mem hlast.mem, ?_⟩
    rwa [found_ne_nil_iff h hlast (hcells column hlast.mem)]

/-- A row continues a record exactly when it does not start one. -/
theorem continues_ofRow {layout : Layout} {raw : Record}
    (h : ofRow sheet layout.schema.columns number = .ok raw)
    (hcells : ∀ column ∈ layout.schema.columns,
      sheet.cellText number column.index = row column.index) :
    continues layout "" raw = !row.starts layout := by
  have hraw := isRaw_ofRow h
  have hdepth : layout.mergesBelow "" = true := by
    rw [Layout.mergesBelow, decide_eq_true_eq]
    exact Nat.zero_le _
  have hextend : ∀ name, FieldPath.extend "" name = name := fun _ => rfl
  rw [continues, hdepth, Bool.true_and, ← Bool.not_inj_iff, Bool.not_not, List.not_all_eq_any_not,
    CellRow.starts, Bool.eq_iff_iff, List.any_eq_true, List.any_eq_true]
  simp only [hextend, Bool.not_or, Bool.and_eq_true, Bool.not_eq_true', Option.any_eq_true]
  constructor
  · rintro ⟨field, hfield, hlist, hfilled⟩
    rw [filled_iff_found (hraw.field hfield) (hraw.below_ne_nil hfield)] at hfilled
    obtain ⟨rest, hrest, hfound⟩ := hfilled
    obtain ⟨column, hcolumn, hsegments⟩ := List.mem_map.mp (Outline.mem_below.mp hrest)
    obtain ⟨last, hlast, hsame⟩ := Column.exists_lastIn hcolumn
    rw [hsegments] at hsame
    rw [← found_record_of_get? (Entries.get?_of_mem hraw.nodup hfield), ← hsame,
      found_ne_nil_iff h hlast (hcells last hlast.mem)] at hfound
    exact ⟨last, Column.mem_effective_iff.mpr hlast, hfound, field.1, by rw [hsame]; rfl, hlist⟩
  · rintro ⟨column, hcolumn, hfilled, name, hhead, hlist⟩
    have hlast := Column.mem_effective_iff.mp hcolumn
    obtain ⟨rest, hsegments⟩ := List.head?_eq_some_iff.mp hhead
    have hpath : name :: rest ∈ Outline.ofColumns layout.schema.columns :=
      hsegments ▸ List.mem_map_of_mem hlast.mem
    obtain ⟨value, hget, hmem, hrest⟩ := hraw.exists_get? hpath
    rw [← found_ne_nil_iff h hlast (hcells column hlast.mem), hsegments,
      found_record_of_get? hget] at hfilled
    refine ⟨(name, value), hmem, hlist, ?_⟩
    rw [filled_iff_found (hraw.field hmem) (hraw.below_ne_nil hmem)]
    exact ⟨rest, hrest, hfilled⟩

end

end Record

/-! ## The record of a row by itself -/

namespace CellRow

/-- A worksheet in which every row is the same one. -/
def everywhere (row : CellRow) : Worksheet where
  name := ""
  extent := none
  rawCell := fun _ column => row column
  anchor := fun _ _ => none

variable {columns : List Column} {row : CellRow} {raw : Record}

theorem ofRow_everywhere (h : row.record? columns = some raw) :
    Record.ofRow row.everywhere columns 1 = .ok raw := by
  refine eq_ok_of_toOption ?_
  rw [@Record.toOption_ofRow _ _ row _ fun _ _ => rfl, h]

theorem fieldsEmpty_record? (h : row.record? columns = some raw) :
    Value.fieldsEmpty raw = row.isBlank columns :=
  Record.fieldsEmpty_ofRow (ofRow_everywhere h) fun _ _ => rfl

theorem continues_record? {layout : Layout} (h : row.record? layout.schema.columns = some raw) :
    Record.continues layout "" raw = !row.starts layout :=
  Record.continues_ofRow (ofRow_everywhere h) fun _ _ => rfl

end CellRow

namespace CompiledSheet

/-- The records of worksheet rows depend on the cells of the rows only. -/
theorem toOption_rawRows {sheet : Worksheet} {columns : List Column} {data : List CellRow}
    {start : Nat} (h : ∀ index row, data[index]? = some row → ∀ column ∈ columns,
      sheet.cellText (start + index) column.index = row column.index) :
    (rawRows sheet columns (List.range' start data.length)).toOption =
      data.mapM (CellRow.record? columns) := by
  induction data generalizing start with
  | nil => rfl
  | cons row data ih =>
    have hfirst := Record.toOption_ofRow (h 0 row rfl)
    have hrest := @ih (start + 1) fun index other hget column hcolumn => by
      have hcell := h (index + 1) other hget column hcolumn
      rwa [Nat.add_comm index, ← Nat.add_assoc] at hcell
    rw [List.length_cons, List.range'_succ, rawRows_cons, List.mapM_cons, ← hfirst, ← hrest]
    cases Record.ofRow sheet columns start with
    | error fault => rfl
    | ok raw => cases rawRows sheet columns (List.range' (start + 1) data.length) <;> rfl

end CompiledSheet

end SheetCompiler
