import Mathlib.Logic.Equiv.Basic
import SheetCompiler.Proofs.BlankedColumns
import SheetCompiler.Proofs.ColumnDeclarations

/-!
# The order of header rows

The rows of a header can be put in another order, as long as rows with the same keyword stay in
theirs.  `Rules.ReordersHeader` says that another worksheet has the header rows of the first one in
such an order, and the same rows below them; any permutation of the header rows that keeps rows with
the same keyword in order gives one (`Rules.reordersHeader_moveRows`).

The other header has as many rows, with the same keywords in another order
(`ReordersHeader.headerKeywords_perm`).  The rows under one keyword are the same rows in the same
order (`ReordersHeader.filter_headerRows`), so every column has the same texts under each keyword and
every note has the same texts.  The schemas therefore have the same fields and the same metadata in
some order, and the worksheets have the same records (`CompiledSheet.header_rows_commute`).
-/

namespace SheetCompiler

open scoped List

namespace Rules

variable {rules : Rules} {move : Equiv.Perm Nat} {sheet other : Worksheet} {extent : Extent}

/-- Two rows have the same keyword: the same folded one if columns collect it, or else one that is
written the same. -/
def SameKeyword (rules : Rules) (sheet : Worksheet) (row later : Nat) : Prop :=
  ((rules.keyAt? sheet row).isSome = true ∧ rules.keyAt? sheet row = rules.keyAt? sheet later) ∨
    ((rules.noteAt? sheet row).isSome = true ∧
      rules.noteAt? sheet row = rules.noteAt? sheet later)

instance (rules : Rules) (sheet : Worksheet) (row later : Nat) :
    Decidable (rules.SameKeyword sheet row later) :=
  inferInstanceAs (Decidable (_ ∧ _ ∨ _ ∧ _))

/-- The other worksheet has the header rows of the first one in another order, in which rows with
the same keyword come one after another as before.  All other rows stay where they are. -/
structure ReordersHeader (rules : Rules) (move : Equiv.Perm Nat) (sheet other : Worksheet) :
    Prop where
  name : sheet.name = other.name
  extent : sheet.extent = other.extent
  outside : ∀ extent, sheet.extent = some extent →
    ∀ row, row ∉ rules.headerRows sheet extent → move row = row
  order : ∀ extent, sheet.extent = some extent →
    ∀ row ∈ rules.headerRows sheet extent, ∀ later ∈ rules.headerRows sheet extent,
      row < later → rules.SameKeyword sheet row later → move row < move later
  cells : ∀ extent, sheet.extent = some extent → ∀ row column, rules.Reaches extent row column →
    sheet.cellText row column = other.cellText (move row) column

end Rules

/-- The worksheet with its rows in other places. -/
def Worksheet.moveRows (move : Equiv.Perm Nat) (sheet : Worksheet) : Worksheet :=
  { sheet with
    rawCell := fun row column => sheet.cellText (move.symm row) column
    anchor := fun _ _ => none }

/-! ## The keywords of the header -/

namespace Rules

variable {rules : Rules} {move : Equiv.Perm Nat} {sheet other : Worksheet} {extent : Extent}

/-- The header rows of any worksheet can be put in another order. -/
theorem reordersHeader_moveRows
    (houtside : ∀ extent, sheet.extent = some extent →
      ∀ row, row ∉ rules.headerRows sheet extent → move row = row)
    (horder : ∀ extent, sheet.extent = some extent →
      ∀ row ∈ rules.headerRows sheet extent, ∀ later ∈ rules.headerRows sheet extent,
        row < later → rules.SameKeyword sheet row later → move row < move later) :
    rules.ReordersHeader move sheet (sheet.moveRows move) := by
  refine ⟨rfl, rfl, houtside, horder, fun extent _ row column _ => ?_⟩
  show _ = sheet.cellText (move.symm (move row)) column
  rw [move.symm_apply_apply]

/-- Rows that are all marked, up to one that is not, are all that have a keyword. -/
theorem keywordsOf_range' {height count first : Nat} (hle : height ≤ count)
    (hmarked : ∀ row ∈ List.range' first height, (rules.keywordAt? sheet row).isSome = true)
    (hstops : height < count → rules.keywordAt? sheet (first + height) = none) :
    rules.keywordsOf sheet (List.range' first count) =
      (List.range' first height).filterMap (rules.keywordAt? sheet) := by
  induction height generalizing count first with
  | zero =>
    cases count with
    | zero => rfl
    | succ count =>
      have hnone : rules.keywordAt? sheet first = none := hstops (Nat.succ_pos count)
      rw [List.range'_succ, keywordsOf_cons_of_none hnone]
      rfl
  | succ height ih =>
    obtain ⟨count, rfl⟩ := Nat.exists_eq_succ_of_ne_zero (Nat.ne_zero_of_lt hle)
    rw [List.range'_succ, List.forall_mem_cons] at hmarked
    obtain ⟨keyword, hkeyword⟩ := Option.isSome_iff_exists.mp hmarked.1
    rw [List.range'_succ, List.range'_succ, keywordsOf_cons_of_some hkeyword,
      List.filterMap_cons_some hkeyword]
    rw [ih (Nat.le_of_succ_le_succ hle) hmarked.2]
    intro hlt
    rw [Nat.add_assoc, Nat.add_comm 1]
    exact hstops (Nat.succ_lt_succ hlt)

/-- The rows whose keywords are collected are marked. -/
theorem isSome_keywordAt?_of_length_keywordsOf {count first : Nat} :
    ∀ row ∈ List.range' first (rules.keywordsOf sheet (List.range' first count)).length,
      (rules.keywordAt? sheet row).isSome = true := by
  induction count generalizing first with
  | zero => exact fun row hrow => absurd hrow List.not_mem_nil
  | succ count ih =>
    rw [List.range'_succ]
    cases hkeyword : rules.keywordAt? sheet first with
    | none =>
      rw [keywordsOf_cons_of_none hkeyword]
      exact fun row hrow => absurd hrow List.not_mem_nil
    | some keyword =>
      rw [keywordsOf_cons_of_some hkeyword, List.length_cons, List.range'_succ,
        List.forall_mem_cons]
      exact ⟨by rw [hkeyword]; rfl, ih⟩

/-- The header rows are looked at. -/
theorem reaches_marker {row : Nat} (h : row ∈ rules.headerRows sheet extent) :
    rules.Reaches extent row Worksheet.markerColumn := by
  rw [headerRows, List.mem_range'_1] at h
  have hheight := rules.headerHeight_le sheet extent
  exact ⟨h.1, by omega, Nat.one_pos, Nat.le_max_left _ _⟩

/-- What a header lacks does not depend on the order of its keywords. -/
theorem lacks_perm {keywords others : List String} (h : keywords.Perm others) (gap : SchemaGap) :
    rules.Lacks keywords gap ↔ rules.Lacks others gap := by
  cases gap with
  | noHeaderRows =>
    rw [Lacks, Lacks, ← List.length_eq_zero_iff, h.length_eq, List.length_eq_zero_iff]
  | noFieldRows =>
    rw [Lacks, Lacks, HasRow, HasRow, HasRow, HasRow, ne_eq, ne_eq, ← List.length_eq_zero_iff,
      h.length_eq, List.length_eq_zero_iff]
    simp only [h.mem_iff]

namespace ReordersHeader

theorem mem_headerRows_iff (h : rules.ReordersHeader move sheet other)
    (hextent : sheet.extent = some extent) {row : Nat} :
    move row ∈ rules.headerRows sheet extent ↔ row ∈ rules.headerRows sheet extent := by
  by_cases hrow : row ∈ rules.headerRows sheet extent
  · refine iff_of_true ?_ hrow
    by_contra hmoved
    have hfixed := h.outside extent hextent _ hmoved
    rw [move.injective hfixed] at hmoved
    exact hmoved hrow
  · rw [h.outside extent hextent row hrow]

theorem reaches_iff (h : rules.ReordersHeader move sheet other)
    (hextent : sheet.extent = some extent) {row column : Nat} :
    rules.Reaches extent (move row) column ↔ rules.Reaches extent row column := by
  by_cases hrow : row ∈ rules.headerRows sheet extent
  · have hreaches := reaches_marker hrow
    have hmoved := reaches_marker ((h.mem_headerRows_iff hextent).mpr hrow)
    constructor
    · exact fun h => ⟨hreaches.row_pos, hreaches.row_le, h.column_pos, h.column_le⟩
    · exact fun h => ⟨hmoved.row_pos, hmoved.row_le, h.column_pos, h.column_le⟩
  · rw [h.outside extent hextent row hrow]

/-- What can be read stays readable. -/
theorem canRead (h : rules.ReordersHeader move sheet other) (hread : rules.CanRead sheet) :
    rules.CanRead other := by
  intro extent hother row column hreaches
  obtain ⟨old, rfl⟩ := move.surjective row
  have hextent : sheet.extent = some extent := h.extent.trans hother
  have hold := (h.reaches_iff hextent).mp hreaches
  rw [← h.cells extent hextent old column hold]
  exact hread extent hextent old column hold

theorem keywordAt?_eq (h : rules.ReordersHeader move sheet other)
    (hextent : sheet.extent = some extent) {row : Nat}
    (hreaches : rules.Reaches extent row Worksheet.markerColumn) :
    rules.keywordAt? other (move row) = rules.keywordAt? sheet row := by
  rw [keywordAt?, keywordAt?, h.cells extent hextent row _ hreaches]

theorem keyAt?_eq (h : rules.ReordersHeader move sheet other)
    (hextent : sheet.extent = some extent) {row : Nat}
    (hrow : row ∈ rules.headerRows sheet extent) :
    rules.keyAt? other (move row) = rules.keyAt? sheet row := by
  rw [keyAt?, keyAt?, h.keywordAt?_eq hextent (reaches_marker hrow)]

theorem noteAt?_eq (h : rules.ReordersHeader move sheet other)
    (hextent : sheet.extent = some extent) {row : Nat}
    (hrow : row ∈ rules.headerRows sheet extent) :
    rules.noteAt? other (move row) = rules.noteAt? sheet row := by
  rw [noteAt?, noteAt?, h.keywordAt?_eq hextent (reaches_marker hrow)]

theorem textAt?_eq (h : rules.ReordersHeader move sheet other)
    (hextent : sheet.extent = some extent) {row column : Nat}
    (hrow : row ∈ rules.headerRows sheet extent) (hcolumn : column ∈ rules.places extent) :
    other.textAt? (move row) column = sheet.textAt? row column := by
  have hreaches := reaches_marker hrow
  obtain ⟨hlow, hhigh⟩ := mem_places.mp hcolumn
  rw [Worksheet.textAt?, Worksheet.textAt?, h.cells extent hextent row column
    ⟨hreaches.row_pos, hreaches.row_le, Nat.zero_lt_of_lt hlow,
      Nat.le_trans hhigh (Nat.le_max_right _ _)⟩]

/-- The header rows are permuted among themselves. -/
theorem headerRows_perm (h : rules.ReordersHeader move sheet other)
    (hextent : sheet.extent = some extent) :
    (rules.headerRows sheet extent).Perm ((rules.headerRows sheet extent).map move) := by
  have hnodup : (rules.headerRows sheet extent).Nodup := List.nodup_range'
  rw [List.perm_ext_iff_of_nodup hnodup ((List.nodup_map_iff move.injective).mpr hnodup)]
  intro row
  obtain ⟨old, rfl⟩ := move.surjective row
  rw [List.mem_map_of_injective move.injective, h.mem_headerRows_iff hextent]

/-- The other header has the same keywords, in another order. -/
theorem headerKeywords_perm (h : rules.ReordersHeader move sheet other)
    (hextent : sheet.extent = some extent) :
    (rules.headerKeywords sheet extent).Perm (rules.headerKeywords other extent) := by
  have hle := rules.headerHeight_le sheet extent
  have hmarked : ∀ row ∈ rules.headerRows sheet extent,
      (rules.keywordAt? sheet row).isSome = true := isSome_keywordAt?_of_length_keywordsOf
  have hstops : rules.headerHeight sheet extent < min extent.rows rules.settings.maxRows →
      rules.keywordAt? sheet (1 + rules.headerHeight sheet extent) = none :=
    keywordAt?_of_length_keywordsOf
  have hotherMarked : ∀ row ∈ rules.headerRows sheet extent,
      (rules.keywordAt? other row).isSome = true := by
    intro row hrow
    obtain ⟨old, rfl⟩ := move.surjective row
    have hold := (h.mem_headerRows_iff hextent).mp hrow
    rw [h.keywordAt?_eq hextent (reaches_marker hold)]
    exact hmarked old hold
  have hotherStops : rules.headerHeight sheet extent < min extent.rows rules.settings.maxRows →
      rules.keywordAt? other (1 + rules.headerHeight sheet extent) = none := by
    intro hlt
    -- the row below the header has not moved
    have hbelow : 1 + rules.headerHeight sheet extent ∉ rules.headerRows sheet extent := by
      rw [headerRows, List.mem_range'_1]
      omega
    rw [← h.outside extent hextent _ hbelow, h.keywordAt?_eq hextent
      ⟨by omega, by omega, Nat.one_pos, Nat.le_max_left _ _⟩, hstops hlt]
  calc rules.headerKeywords sheet extent
    _ = (rules.headerRows sheet extent).filterMap (rules.keywordAt? sheet) :=
      keywordsOf_range' hle hmarked hstops
    _ = ((rules.headerRows sheet extent).map move).filterMap (rules.keywordAt? other) := by
      rw [List.filterMap_map]
      exact List.filterMap_congr fun row hrow =>
        (h.keywordAt?_eq hextent (reaches_marker hrow)).symm
    _ ~ (rules.headerRows sheet extent).filterMap (rules.keywordAt? other) :=
      (h.headerRows_perm hextent).symm.filterMap _
    _ = rules.headerKeywords other extent :=
      (keywordsOf_range' hle hotherMarked hotherStops).symm

theorem headerRows_eq (h : rules.ReordersHeader move sheet other)
    (hextent : sheet.extent = some extent) :
    rules.headerRows other extent = rules.headerRows sheet extent := by
  rw [headerRows, headerRows, headerHeight, headerHeight,
    (h.headerKeywords_perm hextent).length_eq]

/-! ## The rows under one keyword -/

/-- Rows that all have one keyword keep their order. -/
theorem filter_headerRows (h : rules.ReordersHeader move sheet other)
    (hextent : sheet.extent = some extent) {picks moved : Nat → Bool}
    (hmoved : ∀ row ∈ rules.headerRows sheet extent, moved (move row) = picks row)
    (hkeyword : ∀ row later, picks row = true → picks later = true →
      rules.SameKeyword sheet row later) :
    (rules.headerRows sheet extent).filter moved =
      ((rules.headerRows sheet extent).filter picks).map move := by
  have hsorted : (rules.headerRows sheet extent).Pairwise (· < ·) := List.pairwise_lt_range' 1
  have hperm : ((rules.headerRows sheet extent).filter moved).Perm
      (((rules.headerRows sheet extent).filter picks).map move) := by
    rw [← List.filter_congr hmoved]
    show _ ~ ((rules.headerRows sheet extent).filter (moved ∘ move)).map move
    rw [← List.filter_map]
    exact (h.headerRows_perm hextent).filter _
  refine List.Perm.eq_of_pairwise ?_ (hsorted.filter moved) ?_ hperm
  · exact fun row later _ _ hlt hgt => absurd hgt (Nat.lt_asymm hlt)
  · rw [List.pairwise_map]
    refine (hsorted.filter picks).imp_of_mem fun {row later} hrow hlater hlt => ?_
    obtain ⟨hrow, hpicks⟩ := List.mem_filter.mp hrow
    obtain ⟨hlater, hlaterPicks⟩ := List.mem_filter.mp hlater
    exact h.order extent hextent row hrow later hlater hlt
      (hkeyword row later hpicks hlaterPicks)

/-- A column has the same texts under each keyword. -/
theorem valuesUnder_eq (h : rules.ReordersHeader move sheet other)
    (hextent : sheet.extent = some extent) {column : Nat} (hcolumn : column ∈ rules.places extent)
    (key : String) :
    rules.valuesUnder other (rules.headerRows other extent) key column =
      rules.valuesUnder sheet (rules.headerRows sheet extent) key column := by
  have hrows : (rules.headerRows sheet extent).filter
        (fun row => rules.keyAt? other row == some key) =
      ((rules.headerRows sheet extent).filter
        fun row => rules.keyAt? sheet row == some key).map move := by
    refine h.filter_headerRows hextent (fun row hrow => ?_) fun row later hrow hlater => ?_
    · rw [h.keyAt?_eq hextent hrow]
    · rw [beq_iff_eq] at hrow hlater
      exact Or.inl ⟨by rw [hrow]; rfl, hrow.trans hlater.symm⟩
  rw [valuesUnder, valuesUnder, h.headerRows_eq hextent, hrows, List.filterMap_map]
  exact List.filterMap_congr fun row hrow =>
    h.textAt?_eq hextent (List.mem_filter.mp hrow).1 hcolumn

/-- A note has the same texts. -/
theorem textsOf_eq (h : rules.ReordersHeader move sheet other)
    (hextent : sheet.extent = some extent) (note : String) :
    rules.textsOf other (rules.clip extent).columns (rules.headerRows other extent) note =
      rules.textsOf sheet (rules.clip extent).columns (rules.headerRows sheet extent) note := by
  have hrows : (rules.headerRows sheet extent).filter
        (fun row => rules.noteAt? other row == some note) =
      ((rules.headerRows sheet extent).filter
        fun row => rules.noteAt? sheet row == some note).map move := by
    refine h.filter_headerRows hextent (fun row hrow => ?_) fun row later hrow hlater => ?_
    · rw [h.noteAt?_eq hextent hrow]
    · rw [beq_iff_eq] at hrow hlater
      exact Or.inr ⟨by rw [hrow]; rfl, hrow.trans hlater.symm⟩
  rw [textsOf, textsOf, h.headerRows_eq hextent, hrows, List.flatMap_map]
  refine List.flatMap_congr fun row hrow => List.filterMap_congr fun column hcolumn => ?_
  exact h.textAt?_eq hextent (List.mem_filter.mp hrow).1 hcolumn

end ReordersHeader

end Rules

/-! ## The schemas -/

namespace Rules.ReordersHeader

variable {rules : Rules} {move : Equiv.Perm Nat} {sheet other : Worksheet}
  {schema otherSchema : Schema}

/-- Both schemas have the same fields. -/
theorem sameFields (h : rules.ReordersHeader move sheet other)
    (hschema : Schema.ofSheet rules sheet = .ok schema)
    (hother : Schema.ofSheet rules other = .ok otherSchema) : schema.SameFields otherSchema := by
  obtain ⟨extent, -, hextent, -⟩ := Schema.ofSheet_eq_ok hschema
  have hotherExtent : other.extent = some extent := h.extent.symm.trans hextent
  have hheight : schema.headerRows = otherSchema.headerRows := by
    rw [(Schema.header_of_ofSheet hextent hschema).1,
      (Schema.header_of_ofSheet hotherExtent hother).1,
      (h.headerKeywords_perm hextent).length_eq]
  refine Schema.sameFields_of_ofSheet hschema hother h.extent rfl rfl hheight ?_
  intro found hfound key _ index hindex
  rw [← CompiledSheet.headerRows_of_ofSheet hfound hschema,
    ← CompiledSheet.headerRows_of_ofSheet (h.extent.symm.trans hfound) hother,
    h.valuesUnder_eq hfound hindex]

/-- Both schemas have the same metadata, in some order. -/
theorem metadata_perm (h : rules.ReordersHeader move sheet other)
    (hschema : Schema.ofSheet rules sheet = .ok schema)
    (hother : Schema.ofSheet rules other = .ok otherSchema) :
    schema.metadata.Perm otherSchema.metadata := by
  obtain ⟨extent, header, hextent, htakes, -, -, -, -, hsame⟩ :=
    Schema.exists_header_of_ofSheet hschema
  obtain ⟨otherExtent, otherHeader, hotherExtent, hotherTakes, -, -, -, -, hotherSame⟩ :=
    Schema.exists_header_of_ofSheet hother
  obtain rfl := Option.some.inj (hextent.symm.trans (h.extent.trans hotherExtent))
  rw [← CompiledSheet.headerRows_of_ofSheet hextent hschema] at htakes
  rw [← CompiledSheet.headerRows_of_ofSheet hotherExtent hother] at hotherTakes
  refine Entries.perm_of_get?_eq (Schema.nodup_names_of_ofSheet hschema).2.2
    (Schema.nodup_names_of_ofSheet hother).2.2 fun note => ?_
  have hnotes : Entries.get? note header.metadata = Entries.get? note otherHeader.metadata := by
    rw [htakes.metadata, hotherTakes.metadata, h.textsOf_eq hextent]
  rw [hsame, hotherSame]
  exact hnotes

/-- Rows below the header have the same cells. -/
theorem cellText_eq (h : rules.ReordersHeader move sheet other)
    (hschema : Schema.ofSheet rules sheet = .ok schema) :
    ∀ row ∈ CompiledSheet.dataRows schema, ∀ column ∈ schema.columns,
      sheet.cellText row column.index = other.cellText row column.index := by
  intro row hrow column hcolumn
  obtain ⟨extent, hextent, hreaches⟩ := Schema.reaches_of_ofSheet hschema hrow hcolumn
  have hbelow := CompiledSheet.notMem_headerRows_of_mem_dataRows hextent hschema row hrow
  rw [h.cells extent hextent row column.index hreaches, h.outside extent hextent row hbelow]

end Rules.ReordersHeader

namespace CompiledSheet

variable {rules : Rules} {move : Equiv.Perm Nat} {sheet other : Worksheet}

/-- Header rows under different keywords commute.  Put the header rows of a worksheet that can be
read in another order, in which rows with the same keyword come one after another as before.  Then
both worksheets have no schema, for the same reason, or both have one: with the same columns, types,
defaults and header rows, and with the same metadata in some order.  They have the same records, or
fail for the same reason. -/
theorem header_rows_commute (h : rules.ReordersHeader move sheet other)
    (hread : rules.CanRead sheet) :
    ((∃ fault, Schema.ofSheet rules sheet = .error fault ∧
        Schema.ofSheet rules other = .error fault) ∨
      ∃ schema otherSchema, Schema.ofSheet rules sheet = .ok schema ∧
        Schema.ofSheet rules other = .ok otherSchema ∧ schema.SameFields otherSchema ∧
        schema.metadata.Perm otherSchema.metadata) ∧
    (ofWorksheet rules sheet).map records = (ofWorksheet rules other).map records := by
  have hlacks : ∀ extent, sheet.extent = some extent → ∀ gap,
      rules.Lacks (rules.headerKeywords sheet extent) gap ↔
        rules.Lacks (rules.headerKeywords other extent) gap :=
    fun extent hextent gap => Rules.lacks_perm (h.headerKeywords_perm hextent) gap
  rcases ofSheet_cases hread (h.canRead hread) h.name h.extent hlacks with
    ⟨fault, hfault, hotherFault⟩ | ⟨schema, otherSchema, hschema, hother⟩
  · refine ⟨Or.inl ⟨fault, hfault, hotherFault⟩, ?_⟩
    rw [ofWorksheet, ofWorksheet, hfault, hotherFault]
    rfl
  · have hsame := h.sameFields hschema hother
    refine ⟨Or.inr ⟨schema, otherSchema, hschema, hother, hsame,
      h.metadata_perm hschema hother⟩, ?_⟩
    have hagrees : (Layout.mk schema rules.settings).Agrees ⟨schema, rules.settings⟩ :=
      ⟨fun _ => rfl, fun _ => rfl, fun _ => rfl⟩
    rw [ofWorksheet_eq_of_sameFields hschema hother hsame h.name hagrees
      (h.cellText_eq hschema)]
    cases ofWorksheet rules sheet <;> rfl

/-- A header with the levels of its names apart. -/
def guild : Grid where
  name := "Guild"
  rows := [
    ["#var", "Name", "Stats"],
    ["#note", "", "draft"],
    ["#Origin", "north"],
    ["#type", "string", "object"],
    ["#type", "", "int"],
    ["#var", "", "HP"],
    ["", "Ann", "3"]]

/-- The same header with its names first. -/
def tidyGuild : Grid where
  name := "Guild"
  rows := [
    ["#var", "Name", "Stats"],
    ["#var", "", "HP"],
    ["#Origin", "north"],
    ["#type", "string", "object"],
    ["#type", "", "int"],
    ["#note", "", "draft"],
    ["", "Ann", "3"]]

/-- What both compile to. -/
def guildRecords : List Record :=
  [[("Name", .scalar "Ann"), ("Stats", .record [("HP", .scalar "3")])]]

theorem reordersHeader_guild {rules : Rules}
    (hheight : rules.headerHeight guild.worksheet guild.extent = 6)
    (horder : ∀ row ∈ List.range' 1 6, ∀ later ∈ List.range' 1 6, row < later →
      rules.SameKeyword guild.worksheet row later →
        Equiv.swap 2 6 row < Equiv.swap 2 6 later) :
    rules.ReordersHeader (Equiv.swap 2 6) guild.worksheet tidyGuild.worksheet := by
  have hrows : rules.headerRows guild.worksheet guild.extent = List.range' 1 6 := by
    rw [Rules.headerRows, hheight]
  refine ⟨rfl, rfl, ?_, ?_, ?_⟩
  · intro extent hextent row hrow
    obtain rfl := Option.some.inj hextent
    rw [hrows, List.mem_range'_1] at hrow
    exact Equiv.swap_apply_of_ne_of_ne (by omega) (by omega)
  · intro extent hextent
    obtain rfl := Option.some.inj hextent
    rwa [hrows]
  · intro extent hextent row column hreaches
    obtain rfl := Option.some.inj hextent
    have hcells : ∀ row ∈ List.range' 1 7, ∀ column ∈ List.range' 1 3,
        guild.worksheet.cellText row column =
          tidyGuild.worksheet.cellText (Equiv.swap 2 6 row) column := by
      decide +kernel
    have hrow : row ≤ min 7 rules.settings.maxRows := hreaches.row_le
    have hcolumn : column ≤ max 1 (min 3 rules.settings.maxColumns) := hreaches.column_le
    exact hcells row (List.mem_range'_1.mpr ⟨hreaches.row_pos, by omega⟩) column
      (List.mem_range'_1.mpr ⟨hreaches.column_pos, by omega⟩)

/-- With its names first the guild compiles to the same records, and to other metadata only in that
their order has changed. -/
theorem guild_header_rows_commute : ∃ rules compiled other,
    Rules.ofSettings {} = .ok rules ∧
    rules.ReordersHeader (Equiv.swap 2 6) guild.worksheet tidyGuild.worksheet ∧
    rules.CanRead guild.worksheet ∧
    ofWorksheet rules guild.worksheet = .ok compiled ∧
    ofWorksheet rules tidyGuild.worksheet = .ok other ∧
    compiled.records = guildRecords ∧ other.records = guildRecords ∧
    compiled.metadata = [("note", "draft"), ("Origin", "north")] ∧
    other.metadata = [("Origin", "north"), ("note", "draft")] := by
  have hsome : ((Rules.ofSettings {}).toOption.bind fun rules =>
      (ofWorksheet rules guild.worksheet).toOption.bind fun compiled =>
        (ofWorksheet rules tidyGuild.worksheet).toOption.map fun other =>
          (rules.headerHeight guild.worksheet guild.extent,
            decide ((∀ row ∈ List.range' 1 6, ∀ later ∈ List.range' 1 6, row < later →
                rules.SameKeyword guild.worksheet row later →
                  Equiv.swap 2 6 row < Equiv.swap 2 6 later) ∧
              compiled.records = guildRecords ∧
              compiled.metadata = [("note", "draft"), ("Origin", "north")] ∧
              other.metadata = [("Origin", "north"), ("note", "draft")]))) =
      some (6, true) := by
    decide +kernel
  obtain ⟨rules, hrules, hsome⟩ := Option.bind_eq_some_iff.mp hsome
  obtain ⟨compiled, hcompiled, hsome⟩ := Option.bind_eq_some_iff.mp hsome
  obtain ⟨other, hother, hfacts⟩ := Option.map_eq_some_iff.mp hsome
  simp only [Prod.mk.injEq, decide_eq_true_eq] at hfacts
  obtain ⟨hheight, horder, hrecords, hmetadata, hotherMetadata⟩ := hfacts
  have hrules := eq_ok_of_toOption hrules
  have hcompiled := eq_ok_of_toOption hcompiled
  have hother := eq_ok_of_toOption hother
  have hreorders := reordersHeader_guild hheight horder
  have hread := canRead_grid rules (show guild.merged = [] from rfl)
  refine ⟨rules, compiled, other, hrules, hreorders, hread, hcompiled, hother, hrecords, ?_,
    hmetadata, hotherMetadata⟩
  have hsame := (header_rows_commute hreorders hread).2
  rw [hcompiled, hother] at hsame
  exact (Except.ok.inj hsame).symm.trans hrecords

end CompiledSheet

end SheetCompiler
