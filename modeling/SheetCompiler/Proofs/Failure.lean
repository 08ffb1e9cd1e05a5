import SheetCompiler.Proofs.Conflicts
import SheetCompiler.Proofs.RowLimit

/-!
# When a worksheet is not compiled

A worksheet whose cells can all be read is not compiled for one of four reasons
(`SheetFault.Cause`): it has no extent, it has no header rows, these lack names or types, or two of
its columns clash and there is a row to see it.  The reasons exclude each other
(`SheetFault.Cause.unique`), and none of them asks what is in the cells below the header.

The proof goes along the steps of the compiler.  A step that fails does so for one of these reasons
or because a cell that is looked at cannot be read (`CompiledSheet.cause_of_ofWorksheet`); and where
there is such a reason no step gets past it (`SheetFault.Cause.not_ok`).  So it does not matter in
which order the cells are read.
-/

namespace SheetCompiler

/-! ## Cells that cannot be read -/

/-- A cell that is looked at: it lies within the extent of the sheet and the limits of the settings,
or it is in the marker column. -/
structure Rules.Reaches (rules : Rules) (extent : Extent) (row column : Nat) : Prop where
  row_pos : 0 < row
  row_le : row ≤ min extent.rows rules.settings.maxRows
  column_pos : 0 < column
  column_le : column ≤ max Worksheet.markerColumn (min extent.columns rules.settings.maxColumns)

/-- Every cell that is looked at can be read. -/
def Rules.CanRead (rules : Rules) (sheet : Worksheet) : Prop :=
  ∀ extent, sheet.extent = some extent → ∀ row column, rules.Reaches extent row column →
    ∃ cell, sheet.cellText row column = .ok cell

/-- A cell that is looked at cannot be read, and the fault says so. -/
def Rules.FailsToRead (rules : Rules) (sheet : Worksheet) (fault : SheetFault) : Prop :=
  ∃ extent row column, sheet.extent = some extent ∧ rules.Reaches extent row column ∧
    sheet.Unreadable row column fault

theorem Rules.CanRead.not_failsToRead {rules : Rules} {sheet : Worksheet} (h : rules.CanRead sheet)
    (fault : SheetFault) : ¬ rules.FailsToRead sheet fault := by
  rintro ⟨extent, row, column, hextent, hreaches, reason, hcell, -⟩
  obtain ⟨cell, hread⟩ := h extent hextent row column hreaches
  rw [hread] at hcell
  cases hcell

namespace Worksheet

variable {sheet : Worksheet} {row : Nat} {fault : SheetFault}

theorem unreadable_of_readFilled {column : Nat} (h : sheet.readFilled row column = .error fault) :
    sheet.Unreadable row column fault := by
  rw [readFilled] at h
  rcases bind_eq_error.mp h with hread | ⟨cell, -, hfilled⟩
  · exact unreadable_of_read hread
  · cases hfilled

theorem unreadable_of_firstFilled {count column : Nat}
    (h : sheet.firstFilled row count column = .error fault) :
    ∃ index, column ≤ index ∧ index < column + count ∧ sheet.Unreadable row index fault := by
  induction count generalizing column with
  | zero => cases h
  | succ count ih =>
    rw [firstFilled] at h
    rcases bind_eq_error.mp h with hread | ⟨found, -, hrest⟩
    · exact ⟨column, Nat.le_refl _, by omega, unreadable_of_readFilled hread⟩
    · cases found with
      | some text => cases hrest
      | none =>
        obtain ⟨index, hlow, hhigh, hread⟩ := ih hrest
        exact ⟨index, by omega, by omega, hread⟩

end Worksheet

/-! ## The keywords of the header rows -/

namespace Rules

/-- The keyword of a row, if its cell in the marker column begins with the marker. -/
def keywordAt? (rules : Rules) (sheet : Worksheet) (row : Nat) : Option String :=
  ((sheet.cellText row Worksheet.markerColumn).toOption.bind fun cell =>
    cell.bind Text.filled?).bind (Header.keyword? rules.settings.marker)

/-- The keywords of some rows, up to the first one that has none. -/
def keywordsOf (rules : Rules) (sheet : Worksheet) (rows : List Nat) : List String :=
  ((rows.map (rules.keywordAt? sheet)).takeWhile Option.isSome).filterMap id

/-- The keywords of the header rows, as they are written. -/
def headerKeywords (rules : Rules) (sheet : Worksheet) (extent : Extent) : List String :=
  rules.keywordsOf sheet (List.range' 1 (min extent.rows rules.settings.maxRows))

/-- The header has a row with this keyword, when keywords are folded. -/
def HasRow (rules : Rules) (key : String) (keywords : List String) : Prop :=
  ∃ keyword ∈ keywords, rules.settings.fold keyword = key

/-- What a header with some keywords lacks. -/
def Lacks (rules : Rules) (keywords : List String) : SchemaGap → Prop
  | .noHeaderRows => keywords = []
  | .noFieldRows => keywords ≠ [] ∧
      ¬ (rules.HasRow Keyword.field keywords ∧ rules.HasRow Keyword.type keywords)

variable {rules : Rules} {sheet : Worksheet}

theorem Lacks.unique {keywords : List String} {gap other : SchemaGap}
    (h : rules.Lacks keywords gap) (hother : rules.Lacks keywords other) : gap = other := by
  cases gap with
  | noHeaderRows =>
    cases other with
    | noHeaderRows => rfl
    | noFieldRows => exact absurd h hother.1
  | noFieldRows =>
    cases other with
    | noHeaderRows => exact absurd hother h.1
    | noFieldRows => rfl

theorem keywordAt?_eq (rules : Rules) {row : Nat} {cell : Option String}
    (h : sheet.readFilled row Worksheet.markerColumn = .ok cell) :
    rules.keywordAt? sheet row = cell.bind (Header.keyword? rules.settings.marker) := by
  obtain ⟨text, htext, rfl⟩ := Worksheet.cellText_of_readFilled h
  rw [keywordAt?, htext]
  rfl

theorem keywordsOf_cons_of_none {row : Nat} (h : rules.keywordAt? sheet row = none)
    (rows : List Nat) : rules.keywordsOf sheet (row :: rows) = [] := by
  simp [keywordsOf, h]

theorem keywordsOf_cons_of_some {row : Nat} {keyword : String}
    (h : rules.keywordAt? sheet row = some keyword) (rows : List Nat) :
    rules.keywordsOf sheet (row :: rows) = keyword :: rules.keywordsOf sheet rows := by
  simp [keywordsOf, h]

theorem length_keywordsOf_le (rules : Rules) (sheet : Worksheet) (rows : List Nat) :
    (rules.keywordsOf sheet rows).length ≤ rows.length := by
  have hfilter := List.length_filterMap_le id
    ((rows.map (rules.keywordAt? sheet)).takeWhile Option.isSome)
  have htake := (List.takeWhile_sublist (l := rows.map (rules.keywordAt? sheet))
    Option.isSome).length_le
  rw [List.length_map] at htake
  exact Nat.le_trans hfilter htake

/-- No built-in keyword is empty. -/
theorem fold_empty_ne_of_mem_builtIn (rules : Rules) {key : String} (hkey : key ∈ Keyword.builtIn) :
    rules.settings.fold "" ≠ key := by
  have hempty : rules.settings.fold "" = "" := by
    rw [Settings.fold]
    split
    · rfl
    · rfl
  rw [hempty]
  rintro rfl
  revert hkey
  decide

end Rules

namespace Header

variable {rules : Rules} {sheet : Worksheet} {columns : Nat}

theorem has_append {header : Header} {key folded : String} {row : Nat} :
    ({ header with keywordRows := header.keywordRows ++ [(row, folded)] } : Header).has key = true ↔
      header.has key = true ∨ folded = key := by
  simp [has]

/-- A row adds its keyword to those that the header has. -/
theorem has_of_addRow {row : Nat} {keyword key : String} {header next : Header}
    (h : addRow rules sheet columns row keyword header = .ok next) (hkey : key ∈ rules.keywords)
    (hne : rules.settings.fold "" ≠ key) :
    next.has key = true ↔ header.has key = true ∨ rules.settings.fold keyword = key := by
  have hsame : rules.settings.fold keyword ≠ key → ∀ other : Header,
      other.keywordRows = header.keywordRows → (other.has key = true ↔
        header.has key = true ∨ rules.settings.fold keyword = key) := by
    intro hother other hrows
    rw [has, hrows, ← has, or_iff_left hother]
  rw [addRow] at h
  by_cases hempty : keyword.isEmpty = true
  · simp only [hempty, if_true] at h
    rw [String.isEmpty_iff] at hempty
    exact hsame (by rwa [hempty]) next (by rw [← Except.ok.inj h])
  · simp only [hempty, Bool.false_eq_true, if_false] at h
    cases hrecognize : rules.recognize? keyword with
    | some folded =>
      simp only [hrecognize] at h
      rw [Rules.recognize?] at hrecognize
      split at hrecognize
      · rw [← Except.ok.inj h, ← Option.some.inj hrecognize]
        exact has_append
      · cases hrecognize
    | none =>
      have hother : rules.settings.fold keyword ≠ key := by
        rintro rfl
        simp [Rules.recognize?, hkey] at hrecognize
      refine hsame hother next ?_
      simp only [hrecognize] at h
      split at h
      · rw [← Except.ok.inj h]
      · obtain ⟨found, -, h⟩ := bind_eq_ok.mp h
        cases found with
        | none => rw [← Except.ok.inj h]
        | some value => rw [← Except.ok.inj h]

/-- The header rows and their keywords. -/
theorem keywords_of_scan : ∀ {count row : Nat} {header last : Header}, header.rows + 1 = row →
    header.Bounded → scan rules sheet columns count row header = .ok last →
    last.rows = header.rows + (rules.keywordsOf sheet (List.range' row count)).length ∧
      ∀ key ∈ rules.keywords, rules.settings.fold "" ≠ key → (last.has key = true ↔
        header.has key = true ∨ rules.HasRow key (rules.keywordsOf sheet (List.range' row count)))
  | 0, _, _, _, _, _, h => by
    rw [← Except.ok.inj h]
    exact ⟨rfl, fun key _ _ => by simp [Rules.keywordsOf, Rules.HasRow]⟩
  | count + 1, row, header, last, hrow, hbounded, h => by
    rw [scan_succ] at h
    obtain ⟨cell, hread, h⟩ := bind_eq_ok.mp h
    have hkeywordAt := Rules.keywordAt?_eq rules hread
    rw [List.range'_succ]
    cases hkeyword : cell.bind (keyword? rules.settings.marker) with
    | none =>
      simp only [hkeyword] at h
      rw [← Except.ok.inj h, Rules.keywordsOf_cons_of_none (hkeywordAt.trans hkeyword)]
      exact ⟨rfl, fun key _ _ => by simp [Rules.HasRow]⟩
    | some keyword =>
      simp only [hkeyword] at h
      obtain ⟨next, hadd, h⟩ := bind_eq_ok.mp h
      obtain ⟨hnext, hnextBounded⟩ := addRow_eq_ok hadd hrow hbounded
      obtain ⟨hrows, hhas⟩ := keywords_of_scan (by omega) hnextBounded h
      rw [Rules.keywordsOf_cons_of_some (hkeywordAt.trans hkeyword)]
      refine ⟨by rw [hrows, List.length_cons]; omega, fun key hkey hne => ?_⟩
      rw [hhas key hkey hne, has_of_addRow hadd hkey hne, Rules.HasRow, Rules.HasRow,
        List.exists_mem_cons_iff, or_assoc]

/-- The header rows from the top, and which of the built-in keywords they have. -/
theorem keywords_of_scan_empty {rows : Nat} {header : Header}
    (h : scan rules sheet columns rows 1 {} = .ok header) :
    header.rows = (rules.keywordsOf sheet (List.range' 1 rows)).length ∧
      ∀ key ∈ Keyword.builtIn, (header.has key = true ↔
        rules.HasRow key (rules.keywordsOf sheet (List.range' 1 rows))) := by
  obtain ⟨hrows, hhas⟩ := keywords_of_scan rfl HeaderBlock.bounded_empty h
  refine ⟨hrows.trans (Nat.zero_add _), fun key hkey => ?_⟩
  rw [hhas key (Rules.mem_keywords_of_mem_builtIn hkey rules)
    (rules.fold_empty_ne_of_mem_builtIn hkey)]
  simp [has]

/-- Why a header row is not taken in. -/
theorem unreadable_of_addRow {row : Nat} {keyword : String} {header : Header} {fault : SheetFault}
    (h : addRow rules sheet columns row keyword header = .error fault) :
    ∃ column, 0 < column ∧ column ≤ max Worksheet.markerColumn columns ∧
      sheet.Unreadable row column fault := by
  rw [addRow] at h
  by_cases hempty : keyword.isEmpty = true
  · simp only [hempty, if_true] at h
    cases h
  · simp only [hempty, Bool.false_eq_true, if_false] at h
    split at h
    · cases h
    · split at h
      · cases h
      · rcases bind_eq_error.mp h with hfirst | ⟨found, -, h⟩
        · obtain ⟨column, hlow, hhigh, hread⟩ := Worksheet.unreadable_of_firstFilled hfirst
          rw [Worksheet.markerColumn] at hlow hhigh ⊢
          exact ⟨column, by omega, by omega, hread⟩
        · cases found with
          | none => cases h
          | some value => cases h

/-- Why the header rows are not read. -/
theorem unreadable_of_scan {fault : SheetFault} : ∀ {count row : Nat} {header : Header},
    scan rules sheet columns count row header = .error fault →
    ∃ index column, row ≤ index ∧ index < row + count ∧ 0 < column ∧
      column ≤ max Worksheet.markerColumn columns ∧ sheet.Unreadable index column fault
  | 0, _, _, h => by cases h
  | count + 1, row, header, h => by
    rw [scan_succ] at h
    rcases bind_eq_error.mp h with hread | ⟨cell, -, h⟩
    · exact ⟨row, Worksheet.markerColumn, Nat.le_refl _, by omega, Nat.one_pos,
        Nat.le_max_left _ _, Worksheet.unreadable_of_readFilled hread⟩
    · split at h
      · cases h
      · rcases bind_eq_error.mp h with hadd | ⟨next, -, h⟩
        · obtain ⟨column, hpos, hle, hread⟩ := unreadable_of_addRow hadd
          exact ⟨row, column, Nat.le_refl _, by omega, hpos, hle, hread⟩
        · obtain ⟨index, column, hlow, hhigh, hpos, hle, hread⟩ := unreadable_of_scan h
          exact ⟨index, column, by omega, by omega, hpos, hle, hread⟩

/-- Why a column of the header is not read. -/
theorem unreadable_of_column {header : Header} {index : Nat} {fault : SheetFault}
    (h : header.column sheet index = .error fault) :
    ∃ entry ∈ header.keywordRows, sheet.Unreadable entry.1 index fault := by
  obtain ⟨front, entry, back, column, hsplit, -, hstep⟩ := exists_of_foldlM_eq_error h
  refine ⟨entry, by rw [hsplit]; exact List.mem_append_right _ List.mem_cons_self, ?_⟩
  rcases bind_eq_error.mp hstep with hread | ⟨cell, -, hstep⟩
  · exact Worksheet.unreadable_of_readFilled hread
  · cases cell with
    | none => cases hstep
    | some text => cases hstep

end Header

/-! ## The header and its columns -/

namespace Schema

variable {rules : Rules} {sheet : Worksheet} {extent : Extent} {schema : Schema}

/-- What the header of a worksheet with a schema is like. -/
theorem header_of_ofSheet (hextent : sheet.extent = some extent)
    (h : ofSheet rules sheet = .ok schema) :
    schema.headerRows = (rules.headerKeywords sheet extent).length ∧
      schema.rows = min extent.rows rules.settings.maxRows ∧
      ∀ gap, ¬ rules.Lacks (rules.headerKeywords sheet extent) gap := by
  obtain ⟨other, header, hother, hscan, hbuild⟩ := ofSheet_eq_ok h
  obtain rfl := Option.some.inj (hextent.symm.trans hother)
  obtain ⟨hne, hfield, htype, -⟩ := build_eq_ok hbuild
  obtain ⟨hrows, hhas⟩ := Header.keywords_of_scan_empty hscan
  refine ⟨(headerRows_of_build hbuild).trans hrows, rows_of_build hbuild, fun gap hlacks => ?_⟩
  cases gap with
  | noHeaderRows =>
    rw [hrows, ne_eq, List.length_eq_zero_iff] at hne
    exact hne hlacks
  | noFieldRows =>
    rw [hhas _ (by decide)] at hfield htype
    exact hlacks.2 ⟨hfield, htype⟩

/-- Why the columns of a header are not read. -/
theorem unreadable_of_foldlM {header : Header} {indices : List Nat} {before : Schema}
    {fault : SheetFault}
    (h : indices.foldlM (addColumn rules sheet header) before = .error fault) :
    ∃ index ∈ indices, ∃ entry ∈ header.keywordRows, sheet.Unreadable entry.1 index fault := by
  obtain ⟨front, index, back, state, rfl, -, hstep⟩ := exists_of_foldlM_eq_error h
  rw [addColumn] at hstep
  rcases bind_eq_error.mp hstep with hcolumn | ⟨column, -, hstep⟩
  · exact ⟨index, List.mem_append_right _ List.mem_cons_self, Header.unreadable_of_column hcolumn⟩
  · cases hstep

/-- Why a header has no schema. -/
theorem fault_of_build {rows columns : Nat} {header : Header} {fault : SheetFault}
    (hscan : Header.scan rules sheet columns rows 1 {} = .ok header)
    (h : build rules sheet header rows columns = .error fault) :
    (∃ gap, rules.Lacks (rules.keywordsOf sheet (List.range' 1 rows)) gap ∧
      fault = .noSchema sheet.name gap) ∨
    ∃ row column, 0 < row ∧ row ≤ rows ∧ 0 < column ∧ column ≤ columns ∧
      sheet.Unreadable row column fault := by
  obtain ⟨hrows, hhas⟩ := Header.keywords_of_scan_empty hscan
  obtain ⟨-, hbounded⟩ := Header.scan_eq_ok rfl HeaderBlock.bounded_empty hscan
  rw [build] at h
  by_cases hzero : header.rows = 0
  · rw [if_pos hzero] at h
    rw [hrows, List.length_eq_zero_iff] at hzero
    exact Or.inl ⟨.noHeaderRows, hzero, (Except.error.inj h).symm⟩
  · rw [if_neg hzero] at h
    have hsome := hzero
    rw [hrows, List.length_eq_zero_iff] at hsome
    by_cases hkeys : (header.has Keyword.field && header.has Keyword.type) = true
    · simp only [hkeys, Bool.not_true, Bool.false_eq_true, if_false] at h
      obtain ⟨index, hindex, entry, hentry, hread⟩ := unreadable_of_foldlM h
      obtain ⟨hpos, hle⟩ := hbounded entry hentry
      have hlength := rules.length_keywordsOf_le sheet (List.range' 1 rows)
      rw [List.length_range'] at hlength
      rw [List.mem_range'_1, Worksheet.markerColumn] at hindex
      exact Or.inr ⟨entry.1, index, hpos, by omega, by omega, by omega, hread⟩
    · have hlacks : ¬ (rules.HasRow Keyword.field (rules.keywordsOf sheet (List.range' 1 rows)) ∧
          rules.HasRow Keyword.type (rules.keywordsOf sheet (List.range' 1 rows))) := by
        rwa [← hhas _ (by decide), ← hhas _ (by decide), ← Bool.and_eq_true]
      rw [Bool.not_eq_true] at hkeys
      simp only [hkeys, Bool.not_false, if_true] at h
      exact Or.inl ⟨.noFieldRows, ⟨hsome, hlacks⟩, (Except.error.inj h).symm⟩

theorem segments_ne_nil_of_ofSheet (h : ofSheet rules sheet = .ok schema) :
    ∀ column ∈ schema.columns, column.segments ≠ [] :=
  fun column hcolumn => ((lawful_ofSheet h).segments column hcolumn).1

/-- The columns of a schema are some of those that were read, in their order. -/
theorem sublist_of_foldlM {header : Header} {indices : List Nat} {before after : Schema}
    (h : indices.foldlM (addColumn rules sheet header) before = .ok after) :
    ∃ more, after.columns = before.columns ++ more ∧ (more.map Column.index).Sublist indices := by
  induction indices generalizing before with
  | nil =>
    rw [← Except.ok.inj h]
    exact ⟨[], by simp, .slnil⟩
  | cons index indices ih =>
    rw [List.foldlM_cons] at h
    obtain ⟨next, hstep, hrest⟩ := bind_eq_ok.mp h
    obtain ⟨column, hcolumn, rfl⟩ := addColumn_eq_ok hstep
    obtain ⟨more, hmore, hsublist⟩ := ih hrest
    by_cases husable : rules.usable column = true
    · rw [if_pos husable] at hmore
      refine ⟨column :: more, ?_, ?_⟩
      · rw [hmore, register, List.append_assoc, List.singleton_append]
      · rw [List.map_cons, Header.index_column hcolumn]
        exact hsublist.cons_cons index
    · rw [if_neg husable] at hmore
      exact ⟨more, hmore, hsublist.cons index⟩

theorem sublist_of_ofSheet (hextent : sheet.extent = some extent)
    (h : ofSheet rules sheet = .ok schema) : (schema.columns.map Column.index).Sublist
      (List.range' (Worksheet.markerColumn + 1)
        (min extent.columns rules.settings.maxColumns - Worksheet.markerColumn)) := by
  obtain ⟨other, header, hother, -, hbuild⟩ := ofSheet_eq_ok h
  obtain rfl := Option.some.inj (hextent.symm.trans hother)
  obtain ⟨-, -, -, hfold⟩ := build_eq_ok hbuild
  obtain ⟨more, hmore, hsublist⟩ := sublist_of_foldlM hfold
  rw [start, List.nil_append] at hmore
  rwa [hmore]

theorem sorted_of_ofSheet (h : ofSheet rules sheet = .ok schema) :
    Column.Sorted schema.columns := by
  obtain ⟨extent, header, hextent, -, -⟩ := ofSheet_eq_ok h
  have hsorted := List.Pairwise.sublist (sublist_of_ofSheet hextent h) List.pairwise_lt_range'
  exact List.pairwise_map.mp hsorted

end Schema

/-! ## The reasons -/

namespace SheetFault

/-- Why a worksheet whose cells can all be read is not compiled. -/
inductive Cause (rules : Rules) (sheet : Worksheet) : SheetFault → Prop
  | noExtent (hextent : sheet.extent = none) : Cause rules sheet (.noExtent sheet.name)
  | noSchema {extent : Extent} {gap : SchemaGap} (hextent : sheet.extent = some extent)
      (hlacks : rules.Lacks (rules.headerKeywords sheet extent) gap) :
      Cause rules sheet (.noSchema sheet.name gap)
  | clash {extent : Extent} {schema : Schema} {column : Column}
      (hextent : sheet.extent = some extent) (hschema : Schema.ofSheet rules sheet = .ok schema)
      (hdata : (rules.headerKeywords sheet extent).length <
        min extent.rows rules.settings.maxRows)
      (hclash : column.FirstClash schema.columns) :
      Cause rules sheet (.pathConflict sheet.name
        ((rules.headerKeywords sheet extent).length + 1) column.index column.path)

variable {rules : Rules} {sheet : Worksheet}

/-- There is at most one reason. -/
theorem Cause.unique {fault other : SheetFault} (h : Cause rules sheet fault)
    (hother : Cause rules sheet other) : fault = other := by
  cases h with
  | noExtent hnone =>
    cases hother with
    | noExtent => rfl
    | noSchema hextent => cases hnone.symm.trans hextent
    | clash hextent => cases hnone.symm.trans hextent
  | noSchema hextent hlacks =>
    cases hother with
    | noExtent hnone => cases hnone.symm.trans hextent
    | noSchema hother hotherLacks =>
      obtain rfl := Option.some.inj (hextent.symm.trans hother)
      rw [hlacks.unique hotherLacks]
    | clash hother hschema =>
      obtain rfl := Option.some.inj (hextent.symm.trans hother)
      exact absurd hlacks ((Schema.header_of_ofSheet hextent hschema).2.2 _)
  | clash hextent hschema hdata hclash =>
    cases hother with
    | noExtent hnone => cases hnone.symm.trans hextent
    | noSchema hother hlacks =>
      obtain rfl := Option.some.inj (hextent.symm.trans hother)
      exact absurd hlacks ((Schema.header_of_ofSheet hextent hschema).2.2 _)
    | clash hother hotherSchema hotherData hotherClash =>
      obtain rfl := Option.some.inj (hextent.symm.trans hother)
      obtain rfl := Except.ok.inj (hschema.symm.trans hotherSchema)
      rw [hclash.unique (Schema.sorted_of_ofSheet hschema) hotherClash]

end SheetFault

namespace CompiledSheet

open SheetFault (Cause)

variable {rules : Rules} {sheet : Worksheet} {fault : SheetFault}

/-! ## What happens where there is a reason, and where there is none -/

/-- A worksheet without a schema has a reason for it. -/
theorem cause_of_ofSheet (h : Schema.ofSheet rules sheet = .error fault) :
    Cause rules sheet fault ∨ rules.FailsToRead sheet fault := by
  rw [Schema.ofSheet] at h
  cases hextent : sheet.extent with
  | none =>
    rw [hextent] at h
    rw [← Except.error.inj h]
    exact Or.inl (.noExtent hextent)
  | some extent =>
    rw [hextent] at h
    rcases bind_eq_error.mp h with hscan | ⟨header, hscan, hbuild⟩
    · obtain ⟨row, column, hlow, hhigh, hpos, hle, hread⟩ := Header.unreadable_of_scan hscan
      exact Or.inr ⟨extent, row, column, hextent, ⟨by omega, by omega, hpos, hle⟩, hread⟩
    · rcases Schema.fault_of_build hscan hbuild with
        ⟨gap, hlacks, rfl⟩ | ⟨row, column, hrow, hrows, hpos, hle, hread⟩
      · exact Or.inl (.noSchema hextent hlacks)
      · exact Or.inr ⟨extent, row, column, hextent, ⟨hrow, hrows, hpos, by omega⟩, hread⟩

/-- A worksheet that can be read has a schema if its header lacks nothing. -/
theorem exists_ofSheet (hread : rules.CanRead sheet) {extent : Extent}
    (hextent : sheet.extent = some extent)
    (hfull : ∀ gap, ¬ rules.Lacks (rules.headerKeywords sheet extent) gap) :
    ∃ schema, Schema.ofSheet rules sheet = .ok schema := by
  cases hresult : Schema.ofSheet rules sheet with
  | ok schema => exact ⟨schema, rfl⟩
  | error fault =>
    exfalso
    cases (cause_of_ofSheet hresult).resolve_right (hread.not_failsToRead fault) with
    | noExtent hnone => cases hnone.symm.trans hextent
    | noSchema hsome hlacks =>
      obtain rfl := Option.some.inj (hextent.symm.trans hsome)
      exact hfull _ hlacks
    | clash hsome hschema =>
      rw [hresult] at hschema
      cases hschema

/-- A worksheet that can be read has no schema if its header lacks something. -/
theorem ofSheet_of_lacks (hread : rules.CanRead sheet) {extent : Extent}
    (hextent : sheet.extent = some extent) {gap : SchemaGap}
    (hlacks : rules.Lacks (rules.headerKeywords sheet extent) gap) :
    Schema.ofSheet rules sheet = .error (.noSchema sheet.name gap) := by
  cases hresult : Schema.ofSheet rules sheet with
  | ok schema => exact absurd hlacks ((Schema.header_of_ofSheet hextent hresult).2.2 gap)
  | error fault =>
    have hcause := (cause_of_ofSheet hresult).resolve_right (hread.not_failsToRead fault)
    rw [hcause.unique (.noSchema hextent hlacks)]

/-- Two worksheets whose headers lack the same things both have a schema, or they fail for the same
reason. -/
theorem ofSheet_cases {otherRules : Rules} {other : Worksheet} (hread : rules.CanRead sheet)
    (hotherRead : otherRules.CanRead other)
    (hname : sheet.name = other.name) (hextents : sheet.extent = other.extent)
    (hlacks : ∀ extent, sheet.extent = some extent → ∀ gap,
      rules.Lacks (rules.headerKeywords sheet extent) gap ↔
        otherRules.Lacks (otherRules.headerKeywords other extent) gap) :
    (∃ fault, Schema.ofSheet rules sheet = .error fault ∧
      Schema.ofSheet otherRules other = .error fault) ∨
    ∃ schema otherSchema, Schema.ofSheet rules sheet = .ok schema ∧
      Schema.ofSheet otherRules other = .ok otherSchema := by
  cases hextent : sheet.extent with
  | none =>
    rw [Schema.ofSheet, Schema.ofSheet, ← hextents, hextent, hname]
    exact Or.inl ⟨_, rfl, rfl⟩
  | some extent =>
    have hother : other.extent = some extent := by rw [← hextents, hextent]
    by_cases hgap : ∃ gap, rules.Lacks (rules.headerKeywords sheet extent) gap
    · obtain ⟨gap, hgap⟩ := hgap
      refine Or.inl ⟨_, ofSheet_of_lacks hread hextent hgap, ?_⟩
      rw [hname]
      exact ofSheet_of_lacks hotherRead hother ((hlacks extent hextent gap).mp hgap)
    · rw [not_exists] at hgap
      obtain ⟨schema, hschema⟩ := exists_ofSheet hread hextent hgap
      obtain ⟨otherSchema, hotherSchema⟩ := exists_ofSheet hotherRead hother
        fun gap => (hlacks extent hextent gap).not.mp (hgap gap)
      exact Or.inr ⟨schema, otherSchema, hschema, hotherSchema⟩

/-- A worksheet that is not compiled has a reason for it. -/
theorem cause_of_ofWorksheet (h : ofWorksheet rules sheet = .error fault) :
    Cause rules sheet fault ∨ rules.FailsToRead sheet fault := by
  cases hschema : Schema.ofSheet rules sheet with
  | error other =>
    rw [ofWorksheet, hschema] at h
    rw [← Except.error.inj h]
    exact cause_of_ofSheet hschema
  | ok schema =>
    obtain ⟨extent, -, hextent, -⟩ := Schema.ofSheet_eq_ok hschema
    obtain ⟨hheader, hrows, -⟩ := Schema.header_of_ofSheet hextent hschema
    have hne := Schema.segments_ne_nil_of_ofSheet hschema
    rw [ofWorksheet_eq hschema, map_eq_error] at h
    rcases fault_of_rawRows hne (Schema.sorted_of_ofSheet hschema) h with
      ⟨row, hrow, column, hcolumn, hread⟩ | ⟨row, hrow, column, hclash, rfl⟩
    · have hindex := (Schema.sublist_of_ofSheet hextent hschema).subset
        (List.mem_map_of_mem hcolumn)
      rw [List.mem_range'_1, Worksheet.markerColumn] at hindex
      rw [dataRows, List.mem_range'_1, Schema.dataStart, hrows] at hrow
      refine Or.inr ⟨extent, row, column.index, hextent, ⟨by omega, by omega, by omega, ?_⟩, hread⟩
      omega
    · refine Or.inl ?_
      rw [dataRows, Schema.dataStart, hrows, hheader, List.head?_range'] at hrow
      split at hrow
      · cases hrow
      · rw [← Option.some.inj hrow]
        exact .clash hextent hschema (by omega) hclash

/-- No step of the compiler gets past a reason. -/
theorem not_ok_of_cause (h : Cause rules sheet fault) (compiled : CompiledSheet) :
    ofWorksheet rules sheet ≠ .ok compiled := by
  intro hcompiled
  obtain ⟨schema, hschema⟩ : ∃ schema, Schema.ofSheet rules sheet = .ok schema := by
    rw [ofWorksheet] at hcompiled
    obtain ⟨schema, hschema, -⟩ := bind_eq_ok.mp hcompiled
    exact ⟨schema, hschema⟩
  cases h with
  | noExtent hnone =>
    obtain ⟨extent, -, hextent, -⟩ := Schema.ofSheet_eq_ok hschema
    rw [hnone] at hextent
    cases hextent
  | noSchema hextent hlacks =>
    exact (Schema.header_of_ofSheet hextent hschema).2.2 _ hlacks
  | clash hextent hsame hdata hclash =>
    obtain rfl := Except.ok.inj (hschema.symm.trans hsame)
    obtain ⟨hheader, hrows, -⟩ := Schema.header_of_ofSheet hextent hschema
    obtain ⟨raws, hraws, -⟩ := ofWorksheet_eq_ok hschema hcompiled
    obtain ⟨more, hmore⟩ : ∃ more, schema.rows - schema.headerRows = more + 1 :=
      Nat.exists_eq_succ_of_ne_zero (by omega)
    -- the first data row was read, so no columns clash
    rw [dataRows, hmore, List.range'_succ, rawRows_cons] at hraws
    obtain ⟨raw, hraw, -⟩ := bind_eq_ok.mp hraws
    exact hclash.not_clashFree
      (Record.clashFree_of_ofRow (Schema.segments_ne_nil_of_ofSheet hschema) hraw)

/-- When a worksheet is not compiled.  If its cells can be read that is so exactly for one of the
reasons, and any other worksheet fails for one of these or for a cell that cannot be read.  There is
a column that clashes with one further left whenever two columns clash. -/
theorem ofWorksheet_eq_error_iff (rules : Rules) (sheet : Worksheet) :
    (rules.CanRead sheet → ∀ fault,
      ofWorksheet rules sheet = .error fault ↔ Cause rules sheet fault) ∧
    (∀ fault, ofWorksheet rules sheet = .error fault →
      (Cause rules sheet fault ∨ rules.FailsToRead sheet fault) ∧
        (∀ name row path, fault ≠ .untypedField name row path) ∧
        ∀ name row column, fault ≠ .emptyFieldPath name row column) ∧
    ∀ schema, Schema.ofSheet rules sheet = .ok schema →
      ((∃ column : Column, column.FirstClash schema.columns) ↔
        ∃ column ∈ schema.columns, ∃ other ∈ schema.columns,
          column.segments ≠ other.segments ∧ column.segments <+: other.segments) := by
  refine ⟨fun hread fault => ⟨fun h => ?_, fun h => ?_⟩, fun fault h => ?_,
    fun schema hschema => Column.exists_firstClash_iff (Schema.sorted_of_ofSheet hschema)⟩
  · exact (cause_of_ofWorksheet h).resolve_right (hread.not_failsToRead fault)
  · cases hresult : ofWorksheet rules sheet with
    | ok compiled => exact absurd hresult (not_ok_of_cause h compiled)
    | error other =>
      have hother := (cause_of_ofWorksheet hresult).resolve_right
        (hread.not_failsToRead other)
      rw [h.unique hother]
  · have hcause := cause_of_ofWorksheet h
    refine ⟨hcause, ?_, ?_⟩
    · rintro name row path rfl
      rcases hcause with hcause | ⟨extent, _, column, -, -, reason, -, hreason⟩
      · cases hcause
      · cases hreason
    · rintro name row column rfl
      rcases hcause with hcause | ⟨extent, _, column, -, -, reason, -, hreason⟩
      · cases hcause
      · cases hreason

/-- A sheet with a field that has further fields, of which there is nothing in the one data row. -/
def heroes : Grid where
  name := "Heroes"
  rows := [
    ["#var", "Name", "Stats", "Stats"],
    ["#var", "", "", "HP"],
    ["#type", "string", "string", "object"],
    ["#type", "", "", "int"],
    ["", "Ann", "", ""]]

/-- The cells of a grid without merged ranges can be read. -/
theorem canRead_grid (rules : Rules) {grid : Grid} (h : grid.merged = []) :
    rules.CanRead grid.worksheet := by
  intro extent _ row column hreaches
  have hanchor : grid.worksheet.anchor row column = none := by
    rw [Grid.worksheet_anchor, Grid.anchor, h]
    rfl
  have hne : ¬ (row = 0 ∨ column = 0) := by
    have hrow := hreaches.row_pos
    have hcolumn := hreaches.column_pos
    omega
  rw [Worksheet.cellText, hanchor]
  exact ⟨_, by rw [Grid.worksheet_rawCell, Grid.rawCell, if_neg hne]⟩

/-- The heroes fail at the column of the further field, though its cell is blank. -/
theorem heroes_eq_error : ∃ rules, Rules.ofSettings {} = .ok rules ∧
    rules.CanRead heroes.worksheet ∧
    ofWorksheet rules heroes.worksheet = .error (.pathConflict "Heroes" 5 4 "Stats.HP") ∧
    Cause rules heroes.worksheet (.pathConflict "Heroes" 5 4 "Stats.HP") := by
  have hsome : ((Rules.ofSettings {}).toOption.bind fun rules =>
      fault? (ofWorksheet rules heroes.worksheet)) =
        some (.pathConflict "Heroes" 5 4 "Stats.HP") := by
    decide +kernel
  obtain ⟨rules, hrules, hfault⟩ := Option.bind_eq_some_iff.mp hsome
  have hread := canRead_grid rules (show heroes.merged = [] from rfl)
  have herror := eq_error_of_fault? hfault
  exact ⟨rules, eq_ok_of_toOption hrules, hread, herror,
    ((ofWorksheet_eq_error_iff rules _).1 hread _).mp herror⟩

end CompiledSheet

end SheetCompiler
