import SheetCompiler.Proofs.HeaderRows

/-!
# Blanked columns

The header describes a column in the rows under the keywords that columns collect
(`Rules.Describes`).  `Rules.Blanks` says that another worksheet has blank cells there for some of
the columns and is the same everywhere else; there always is one (`Rules.blanks_blankColumns`).

The header rows are the same, since they are told by the marker column, and so are the notes, since
they stand in rows under other keywords (`Rules.Blanks.scan_eq`).  A blanked column is read as one
that has nothing at all, and every other column is read alike.  The rows below the header have not
changed (`Rules.Blanks.rawRows_eq`).
-/

namespace SheetCompiler

namespace Rules

variable {rules : Rules} {blanked : Extent → Nat → Prop} {sheet other : Worksheet} {extent : Extent}

/-- The header rows. -/
def headerRows (rules : Rules) (sheet : Worksheet) (extent : Extent) : List Nat :=
  List.range' 1 (rules.headerHeight sheet extent)

/-- A cell describes a column: it is in a header row under a keyword that columns collect, and its
column is looked at. -/
def Describes (rules : Rules) (sheet : Worksheet) (extent : Extent) (row column : Nat) : Prop :=
  row ∈ rules.headerRows sheet extent ∧ (rules.keyAt? sheet row).isSome = true ∧
    column ∈ rules.places extent

instance (rules : Rules) (sheet : Worksheet) (extent : Extent) (row column : Nat) :
    Decidable (rules.Describes sheet extent row column) :=
  inferInstanceAs (Decidable (_ ∧ _ ∧ _))

/-- The other worksheet has blank cells where the first one describes certain columns, and is the
same everywhere else. -/
structure Blanks (rules : Rules) (blanked : Extent → Nat → Prop) (sheet other : Worksheet) :
    Prop where
  name : sheet.name = other.name
  extent : sheet.extent = other.extent
  blank : ∀ extent, sheet.extent = some extent → ∀ row column,
    rules.Describes sheet extent row column → blanked extent column →
    ∃ cell, other.cellText row column = .ok cell ∧ cell.bind Text.filled? = none
  kept : ∀ extent, sheet.extent = some extent → ∀ row column,
    ¬ (rules.Describes sheet extent row column ∧ blanked extent column) →
    sheet.cellText row column = other.cellText row column

/-- The worksheet with nothing in the cells that describe certain columns. -/
def blankColumns (rules : Rules) (blanked : Extent → Nat → Prop)
    [∀ extent, DecidablePred (blanked extent)] (sheet : Worksheet) : Worksheet :=
  { sheet with
    rawCell := fun row column =>
      if sheet.extent.any fun extent =>
        rules.Describes sheet extent row column ∧ blanked extent column then .ok none
      else sheet.cellText row column
    anchor := fun _ _ => none }

/-- Any columns of any worksheet can be blanked. -/
theorem blanks_blankColumns (rules : Rules) (blanked : Extent → Nat → Prop)
    [∀ extent, DecidablePred (blanked extent)] (sheet : Worksheet) :
    rules.Blanks blanked sheet (rules.blankColumns blanked sheet) := by
  have hcell : ∀ extent, sheet.extent = some extent → ∀ row column,
      (rules.blankColumns blanked sheet).cellText row column =
        if rules.Describes sheet extent row column ∧ blanked extent column then .ok none
        else sheet.cellText row column := by
    intro extent hextent row column
    show (if sheet.extent.any _ then _ else _) = _
    simp only [hextent, Option.any_some, decide_eq_true_eq]
  refine ⟨rfl, rfl, fun extent hextent row column hdescribes hblanked => ?_,
    fun extent hextent row column hkept => ?_⟩
  · exact ⟨none, by rw [hcell extent hextent, if_pos ⟨hdescribes, hblanked⟩], rfl⟩
  · rw [hcell extent hextent, if_neg hkept]

namespace Blanks

theorem readFilled_of_blanked (h : rules.Blanks blanked sheet other)
    (hextent : sheet.extent = some extent) {row column : Nat}
    (hdescribes : rules.Describes sheet extent row column) (hblanked : blanked extent column) :
    other.readFilled row column = .ok none := by
  obtain ⟨cell, hcell, hblank⟩ := h.blank extent hextent row column hdescribes hblanked
  rw [Worksheet.readFilled_eq_of_cellText hcell, hblank]

theorem readFilled_eq (h : rules.Blanks blanked sheet other) (hextent : sheet.extent = some extent)
    {row column : Nat}
    (hkept : ¬ (rules.Describes sheet extent row column ∧ blanked extent column)) :
    sheet.readFilled row column = other.readFilled row column :=
  Worksheet.readFilled_congr h.name (by rw [h.kept extent hextent row column hkept])

/-- The cells of the marker column describe no column. -/
theorem readFilled_marker (h : rules.Blanks blanked sheet other)
    (hextent : sheet.extent = some extent) (row : Nat) :
    sheet.readFilled row Worksheet.markerColumn = other.readFilled row Worksheet.markerColumn := by
  refine h.readFilled_eq hextent fun hdescribes => ?_
  exact Nat.lt_irrefl _ (mem_places.mp hdescribes.1.2.2).1

/-- What can be read stays readable. -/
theorem canRead (h : rules.Blanks blanked sheet other) (hread : rules.CanRead sheet) :
    rules.CanRead other := by
  intro extent hother row column hreaches
  have hextent : sheet.extent = some extent := h.extent.trans hother
  by_cases hblank : rules.Describes sheet extent row column ∧ blanked extent column
  · obtain ⟨cell, hcell, -⟩ := h.blank extent hextent row column hblank.1 hblank.2
    exact ⟨cell, hcell⟩
  · rw [← h.kept extent hextent row column hblank]
    exact hread extent hextent row column hreaches

theorem keywordAt?_same (h : rules.Blanks blanked sheet other)
    (hextent : sheet.extent = some extent) (row : Nat) :
    rules.keywordAt? sheet row = rules.keywordAt? other row := by
  rw [keywordAt?, keywordAt?, h.kept extent hextent row Worksheet.markerColumn fun hdescribes =>
    Nat.lt_irrefl _ (mem_places.mp hdescribes.1.2.2).1]

/-- The header has the same keywords. -/
theorem headerKeywords_eq (h : rules.Blanks blanked sheet other)
    (hextent : sheet.extent = some extent) :
    rules.headerKeywords sheet extent = rules.headerKeywords other extent := by
  rw [headerKeywords, headerKeywords, keywordsOf, keywordsOf, funext (h.keywordAt?_same hextent)]

/-! ## The header rows -/

/-- A header row is taken in alike: the cells of a note describe no column. -/
theorem addRow_eq (h : rules.Blanks blanked sheet other) (hextent : sheet.extent = some extent)
    {row : Nat} {keyword : String} (hkeyword : rules.keywordAt? sheet row = some keyword)
    (columns : Nat) (header : Header) :
    Header.addRow rules sheet columns row keyword header =
      Header.addRow rules other columns row keyword header := by
  rw [Header.addRow, Header.addRow]
  by_cases hempty : keyword.isEmpty = true
  · simp only [hempty, if_true]
  · simp only [hempty, Bool.false_eq_true, if_false]
    cases hrecognize : rules.recognize? keyword with
    | some folded => rfl
    | none =>
      have hkey : rules.keyAt? sheet row = none := by
        rw [keyAt?, hkeyword, Option.bind_some, if_neg hempty, hrecognize]
      have hkept : ∀ column,
          ¬ (rules.Describes sheet extent row column ∧ blanked extent column) := by
        rintro column ⟨⟨-, hsome, -⟩, -⟩
        rw [hkey] at hsome
        cases hsome
      rw [Worksheet.firstFilled_congr fun column _ _ => h.readFilled_eq hextent (hkept column)]

/-- The header rows are the same. -/
theorem scan_eq (h : rules.Blanks blanked sheet other) (hextent : sheet.extent = some extent)
    (columns : Nat) : ∀ (count row : Nat) (header : Header),
    Header.scan rules sheet columns count row header =
      Header.scan rules other columns count row header
  | 0, _, _ => rfl
  | count + 1, row, header => by
    rw [Header.scan_succ, Header.scan_succ, ← h.readFilled_marker hextent]
    cases hread : sheet.readFilled row Worksheet.markerColumn with
    | error fault => rfl
    | ok cell =>
      cases hkeyword : cell.bind (Header.keyword? rules.settings.marker) with
      | none => simp only [Except.bind, hkeyword]
      | some keyword =>
        have hkeywordAt := (keywordAt?_eq rules hread).trans hkeyword
        simp only [Except.bind, hkeyword, h.addRow_eq hextent hkeywordAt,
          scan_eq h hextent columns count]

end Blanks

end Rules

/-! ## The columns -/

namespace Header

variable {rules : Rules} {sheet : Worksheet} {extent : Extent} {header : Header}

/-- A scan takes in the header rows. -/
theorem takes_headerRows
    (h : scan rules sheet (rules.clip extent).columns (rules.clip extent).rows 1 {} = .ok header) :
    Takes rules sheet (rules.clip extent).columns (rules.headerRows sheet extent) {} header := by
  obtain ⟨height, -, htakes, -, -⟩ := @takes_of_scan rules sheet _ _ 1 {} header rfl h
  have hrows := (keywords_of_scan rfl HeaderBlock.bounded_empty h).1
  rw [htakes.height, List.length_range', Nat.add_left_cancel_iff] at hrows
  have hheight : height = rules.headerHeight sheet extent := hrows
  rwa [Rules.headerRows, ← hheight]

/-- Rows with a keyword are header rows. -/
theorem Takes.mem_keywordRows {columns : Nat} {rows : List Nat}
    (h : Takes rules sheet columns rows {} header) {entry : Nat × String}
    (hentry : entry ∈ header.keywordRows) :
    entry.1 ∈ rows ∧ rules.keyAt? sheet entry.1 = some entry.2 := by
  rw [h.keywordRows, List.mem_append, List.mem_filterMap] at hentry
  obtain ⟨row, hrow, hpair⟩ := hentry.resolve_left List.not_mem_nil
  obtain ⟨key, hkey, rfl⟩ := Option.map_eq_some_iff.mp hpair
  exact ⟨hrow, hkey⟩

/-- The columns of a header that can be read are read. -/
theorem exists_column {index : Nat}
    (h : ∀ entry ∈ header.keywordRows, ∃ cell, sheet.cellText entry.1 index = .ok cell) :
    ∃ column, header.column sheet index = .ok column := by
  refine exists_foldlM (fun entry hentry column => ?_) _
  obtain ⟨cell, hcell⟩ := h entry hentry
  rw [Worksheet.readFilled_eq_of_cellText hcell]
  cases cell.bind Text.filled? with
  | none => exact ⟨column, rfl⟩
  | some text => exact ⟨column.push entry.2 text, rfl⟩

/-- Where every cell can be read, the columns are read. -/
theorem exists_column_of_canRead (hread : rules.CanRead sheet)
    (hextent : sheet.extent = some extent)
    (htakes : Takes rules sheet (rules.clip extent).columns (rules.headerRows sheet extent) {}
      header) {index : Nat} (hindex : index ∈ rules.places extent) :
    ∃ column, header.column sheet index = .ok column := by
  refine exists_column fun entry hentry => hread extent hextent entry.1 index ?_
  obtain ⟨hrow, -⟩ := htakes.mem_keywordRows hentry
  obtain ⟨hlow, hhigh⟩ := Rules.mem_places.mp hindex
  rw [Rules.headerRows, List.mem_range'_1] at hrow
  have hheight := rules.headerHeight_le sheet extent
  exact ⟨hrow.1, by omega, by omega, Nat.le_trans hhigh (Nat.le_max_right _ _)⟩

end Header

namespace Rules.Blanks

variable {rules : Rules} {blanked : Extent → Nat → Prop} {sheet other : Worksheet} {extent : Extent}
  {header : Header}

/-- A column that is not blanked is read alike. -/
theorem column_eq (h : rules.Blanks blanked sheet other) (hextent : sheet.extent = some extent)
    {index : Nat} (hkept : ¬ blanked extent index) :
    header.column sheet index = header.column other index := by
  refine foldlM_congr (fun entry _ column => ?_) _
  rw [h.readFilled_eq hextent fun hdescribes => hkept hdescribes.2]

/-- A column that is blanked has nothing. -/
theorem column_of_blanked (h : rules.Blanks blanked sheet other)
    (hextent : sheet.extent = some extent)
    (htakes : Header.Takes rules sheet (rules.clip extent).columns (rules.headerRows sheet extent)
      {} header) {index : Nat} (hindex : index ∈ rules.places extent)
    (hblanked : blanked extent index) :
    header.column other index = .ok { index := index } := by
  refine foldlM_of_skip (fun entry hentry column => ?_) _
  obtain ⟨hrow, hkey⟩ := htakes.mem_keywordRows hentry
  have hdescribes : rules.Describes sheet extent entry.1 index :=
    ⟨hrow, by rw [hkey]; rfl, hindex⟩
  rw [h.readFilled_of_blanked hextent hdescribes hblanked]
  rfl

/-! ## The rows below the header -/

/-- The rows below the header have not changed. -/
theorem rawRows_eq (h : rules.Blanks blanked sheet other) (hextent : sheet.extent = some extent)
    {rows : List Nat} (hrows : ∀ row ∈ rows, row ∉ rules.headerRows sheet extent)
    (columns : List Column) :
    CompiledSheet.rawRows sheet columns rows = CompiledSheet.rawRows other columns rows := by
  refine CompiledSheet.rawRows_congr fun row hrow => Record.ofRow_congr h.name fun column _ => ?_
  rw [h.kept extent hextent row column.index fun hdescribes => hrows row hrow hdescribes.1.1]

end Rules.Blanks

namespace CompiledSheet

variable {rules : Rules} {sheet : Worksheet} {extent : Extent} {schema : Schema}

theorem headerRows_of_ofSheet (hextent : sheet.extent = some extent)
    (hschema : Schema.ofSheet rules sheet = .ok schema) :
    rules.headerRows sheet extent = List.range' 1 schema.headerRows := by
  rw [(Schema.header_of_ofSheet hextent hschema).1]
  rfl

theorem notMem_headerRows_of_mem_dataRows (hextent : sheet.extent = some extent)
    (hschema : Schema.ofSheet rules sheet = .ok schema) :
    ∀ row ∈ dataRows schema, row ∉ rules.headerRows sheet extent := by
  intro row hrow hheader
  rw [headerRows_of_ofSheet hextent hschema, List.mem_range'_1] at hheader
  rw [dataRows, Schema.dataStart, List.mem_range'_1] at hrow
  omega

end CompiledSheet

end SheetCompiler
