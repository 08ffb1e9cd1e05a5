import SheetCompiler.Proofs.Agreement
import SheetCompiler.Proofs.HeaderBlock

/-!
# Boundaries between records

Fix a header block and compile the data rows below it in two parts, once each by itself and once one
part below the other.  If one of the parts gives no records, or the second one opens with a row that
starts a record, then the records of the whole are those of the first part and those of the second
(`HeaderBlock.compiles_append`).  Otherwise the second part continues the last record of the first
one: there is one record less, and all records before that last one are untouched.

The reason is that a row never looks further back than to the last record, and that it is told from
the row alone whether it starts a record (`takeIn_append`, `length_takeIn`).  Blank rows do nothing
at all, wherever they stand.
-/

namespace SheetCompiler

namespace CompiledSheet

variable {layout : Layout}

/-! ## Rows and older records -/

theorem takeIn_ne_nil {records : List Record} (h : records ≠ []) (raw : Record) :
    takeIn layout records raw ≠ [] := by
  obtain ⟨previous, earlier, rfl⟩ := List.exists_cons_of_ne_nil h
  cases hfilled : Value.fieldsEmpty raw with
  | true => rwa [takeIn_of_fieldsEmpty hfilled]
  | false =>
    rw [takeIn_cons hfilled]
    split
    · exact List.cons_ne_nil _ _
    · exact List.cons_ne_nil _ _

/-- A row leaves all records alone but the newest one. -/
theorem takeIn_append {newer : List Record} (h : newer ≠ []) (older : List Record) (raw : Record) :
    takeIn layout (newer ++ older) raw = takeIn layout newer raw ++ older := by
  obtain ⟨previous, earlier, rfl⟩ := List.exists_cons_of_ne_nil h
  cases hfilled : Value.fieldsEmpty raw with
  | true => rw [takeIn_of_fieldsEmpty hfilled, takeIn_of_fieldsEmpty hfilled]
  | false =>
    rw [List.cons_append, takeIn_cons hfilled, takeIn_cons hfilled]
    split
    · rw [List.cons_append]
    · rw [List.cons_append, List.cons_append]

theorem foldl_takeIn_append {newer : List Record} (h : newer ≠ []) (older raws : List Record) :
    raws.foldl (takeIn layout) (newer ++ older) = raws.foldl (takeIn layout) newer ++ older := by
  induction raws generalizing newer with
  | nil => rfl
  | cons raw raws ih =>
    rw [List.foldl_cons, List.foldl_cons, takeIn_append h, ih (takeIn_ne_nil h raw)]

theorem foldl_takeIn_ne_nil {records : List Record} (h : records ≠ []) (raws : List Record) :
    raws.foldl (takeIn layout) records ≠ [] := by
  induction raws generalizing records with
  | nil => exact h
  | cons raw raws ih => exact ih (takeIn_ne_nil h raw)

/-- How many records there are after a row does not depend on what is in those before it. -/
theorem length_takeIn {records others : List Record} (h : records.length = others.length)
    (raw : Record) : (takeIn layout records raw).length = (takeIn layout others raw).length := by
  cases hfilled : Value.fieldsEmpty raw with
  | true => rw [takeIn_of_fieldsEmpty hfilled, takeIn_of_fieldsEmpty hfilled, h]
  | false =>
    cases records with
    | nil =>
      have hnil : others = [] := List.eq_nil_of_length_eq_zero h.symm
      rw [hnil]
    | cons previous earlier =>
      cases others with
      | nil => cases h
      | cons other rest =>
        rw [takeIn_cons hfilled, takeIn_cons hfilled]
        simp only [List.length_cons] at h
        split
        · simp only [List.length_cons]
          omega
        · simp only [List.length_cons]
          omega

theorem length_foldl_takeIn {records others : List Record} (h : records.length = others.length)
    (raws : List Record) :
    (raws.foldl (takeIn layout) records).length = (raws.foldl (takeIn layout) others).length := by
  induction raws generalizing records others with
  | nil => exact h
  | cons raw raws ih =>
    rw [List.foldl_cons, List.foldl_cons]
    exact ih (length_takeIn h raw)

/-- Blank rows do nothing. -/
theorem foldl_takeIn_filter (raws records : List Record) :
    (raws.filter fun raw => !Value.fieldsEmpty raw).foldl (takeIn layout) records =
      raws.foldl (takeIn layout) records := by
  induction raws generalizing records with
  | nil => rfl
  | cons raw raws ih =>
    cases hfilled : Value.fieldsEmpty raw with
    | true =>
      rw [List.filter_cons_of_neg (by rw [hfilled]; decide), List.foldl_cons,
        takeIn_of_fieldsEmpty hfilled, ih]
    | false =>
      rw [List.filter_cons_of_pos (by rw [hfilled]; decide), List.foldl_cons, List.foldl_cons, ih]

/-- Whether the first of some raw rows that is not blank starts a record. -/
def opensRecord (layout : Layout) (raws : List Record) : Bool :=
  (raws.find? fun raw => !Value.fieldsEmpty raw).any fun raw =>
    !Record.continues layout "" raw

/-- Rows that open with a new record, or follow none, or give none, make the records that they make
by themselves. -/
theorem foldl_takeIn_of_opens {raws records : List Record}
    (h : records = [] ∨ raws.foldl (takeIn layout) [] = [] ∨ opensRecord layout raws = true) :
    raws.foldl (takeIn layout) records = raws.foldl (takeIn layout) [] ++ records := by
  induction raws with
  | nil => rfl
  | cons raw raws ih =>
    rw [List.foldl_cons, List.foldl_cons]
    cases hfilled : Value.fieldsEmpty raw with
    | true =>
      rw [takeIn_of_fieldsEmpty hfilled, takeIn_of_fieldsEmpty hfilled]
      rw [opensRecord, List.find?_cons_of_neg (by rw [hfilled]; decide), List.foldl_cons,
        takeIn_of_fieldsEmpty hfilled] at h
      exact ih h
    | false =>
      rw [takeIn_nil hfilled]
      rcases h with rfl | hnone | hopens
      · rw [takeIn_nil hfilled, List.append_nil]
      · rw [List.foldl_cons, takeIn_nil hfilled] at hnone
        exact absurd hnone (foldl_takeIn_ne_nil (List.cons_ne_nil _ _) raws)
      · rw [opensRecord, List.find?_cons_of_pos (by rw [hfilled]; decide), Option.any_some,
          Bool.not_eq_true'] at hopens
        rw [takeIn_of_not_continues hfilled hopens, ← List.singleton_append,
          foldl_takeIn_append (List.cons_ne_nil _ _)]

/-- Rows that open with a continuation grow the newest record, and make one record less than by
themselves. -/
theorem foldl_takeIn_of_not_opens {raws earlier : List Record} {previous : Record}
    (hsome : raws.foldl (takeIn layout) [] ≠ []) (hopens : opensRecord layout raws = false) :
    ∃ newer, raws.foldl (takeIn layout) (previous :: earlier) = newer ++ earlier ∧
      newer.length = (raws.foldl (takeIn layout) []).length := by
  induction raws with
  | nil => exact absurd rfl hsome
  | cons raw raws ih =>
    rw [List.foldl_cons, List.foldl_cons]
    rw [List.foldl_cons] at hsome
    cases hfilled : Value.fieldsEmpty raw with
    | true =>
      rw [takeIn_of_fieldsEmpty hfilled] at hsome
      rw [takeIn_of_fieldsEmpty hfilled, takeIn_of_fieldsEmpty hfilled]
      rw [opensRecord, List.find?_cons_of_neg (by rw [hfilled]; decide)] at hopens
      exact ih hsome hopens
    | false =>
      rw [opensRecord, List.find?_cons_of_pos (by rw [hfilled]; decide), Option.any_some,
        Bool.not_eq_false'] at hopens
      rw [takeIn_nil hfilled, takeIn_cons hfilled, if_pos hopens, ← List.singleton_append,
        foldl_takeIn_append (List.cons_ne_nil _ _)]
      have hsingle : [Record.growFields layout "" previous raw].length =
          [newRecord layout raw].length := rfl
      exact ⟨_, rfl, length_foldl_takeIn hsingle raws⟩

/-! ## Rows of cells -/

/-- What data rows compile to under a layout, if their cells can be read and placed. -/
def recordsOf (layout : Layout) (data : List CellRow) : Option (List Record) :=
  (data.mapM (CellRow.record? layout.schema.columns)).map fun raws =>
    (raws.foldl (takeIn layout) []).reverse

/-- Whether the first of some rows that is not blank starts a record. -/
def startsRecord (layout : Layout) (data : List CellRow) : Bool :=
  (data.find? fun row => !row.isBlank layout.schema.columns).any (CellRow.starts layout)

theorem forall₂_of_mapM {α β : Type} {f : α → Option β} {entries : List α} {images : List β}
    (h : entries.mapM f = some images) :
    List.Forall₂ (fun entry image => f entry = some image) entries images := by
  induction entries generalizing images with
  | nil =>
    rw [List.mapM_nil] at h
    rw [← Option.some.inj h]
    exact .nil
  | cons entry rest ih =>
    rw [List.mapM_cons] at h
    obtain ⟨image, himage, h⟩ := Option.bind_eq_some_iff.mp h
    obtain ⟨tail, htail, h⟩ := Option.bind_eq_some_iff.mp h
    rw [← Option.some.inj h]
    exact .cons himage (ih htail)

theorem opensRecord_eq {data : List CellRow} {raws : List Record}
    (h : data.mapM (CellRow.record? layout.schema.columns) = some raws) :
    opensRecord layout raws = startsRecord layout data := by
  have hrows := forall₂_of_mapM h
  clear h
  induction hrows with
  | nil => rfl
  | @cons row raw _ _ hrow _ ih =>
    have hblank := CellRow.fieldsEmpty_record? hrow
    rw [opensRecord, startsRecord, List.find?_cons, List.find?_cons, hblank]
    cases row.isBlank layout.schema.columns with
    | true => exact ih
    | false =>
      show (!Record.continues layout "" raw) = row.starts layout
      rw [CellRow.continues_record? hrow, Bool.not_not]

/-- Blank rows may be left out. -/
theorem foldl_takeIn_filter_isBlank {data : List CellRow} {raws : List Record}
    (h : data.mapM (CellRow.record? layout.schema.columns) = some raws) :
    (data.filter fun row => !row.isBlank layout.schema.columns).mapM
      (CellRow.record? layout.schema.columns) =
        some (raws.filter fun raw => !Value.fieldsEmpty raw) := by
  have hrows := forall₂_of_mapM h
  clear h
  induction hrows with
  | nil => rfl
  | @cons row raw _ _ hrow _ ih =>
    have hblank := CellRow.fieldsEmpty_record? hrow
    rw [List.filter_cons, List.filter_cons, hblank]
    cases row.isBlank layout.schema.columns with
    | true => exact ih
    | false =>
      simp only [Bool.not_false, if_true]
      rw [List.mapM_cons, hrow, ih]
      rfl

/-- Data rows that differ by blank rows only compile to the same records. -/
theorem recordsOf_congr {first second : List CellRow} {records others : List Record}
    (h : recordsOf layout first = some records) (hothers : recordsOf layout second = some others)
    (hsame : (first.filter fun row => !row.isBlank layout.schema.columns) =
      second.filter fun row => !row.isBlank layout.schema.columns) : records = others := by
  obtain ⟨raws, hraws, rfl⟩ := Option.map_eq_some_iff.mp h
  obtain ⟨otherRaws, hotherRaws, rfl⟩ := Option.map_eq_some_iff.mp hothers
  have hfirst := foldl_takeIn_filter_isBlank hraws
  rw [hsame, foldl_takeIn_filter_isBlank hotherRaws, Option.some.injEq] at hfirst
  rw [← foldl_takeIn_filter raws, ← foldl_takeIn_filter otherRaws, hfirst]

/-- The records of two parts, and those of the whole. -/
theorem recordsOf_append {first second : List CellRow} {records others : List Record}
    (h : recordsOf layout first = some records) (hothers : recordsOf layout second = some others) :
    ∃ whole, recordsOf layout (first ++ second) = some whole ∧
      (records = [] ∨ others = [] ∨ startsRecord layout second = true →
        whole = records ++ others) ∧
      (¬ (records = [] ∨ others = [] ∨ startsRecord layout second = true) →
        whole.length = records.length + others.length - 1 ∧
          whole.take (records.length - 1) = records.take (records.length - 1)) := by
  obtain ⟨raws, hraws, rfl⟩ := Option.map_eq_some_iff.mp h
  obtain ⟨otherRaws, hotherRaws, rfl⟩ := Option.map_eq_some_iff.mp hothers
  have hopens := opensRecord_eq hotherRaws
  refine ⟨((raws ++ otherRaws).foldl (takeIn layout) []).reverse, ?_, ?_, ?_⟩
  · rw [recordsOf, List.mapM_append, hraws, hotherRaws]
    rfl
  · intro hcase
    rw [List.reverse_eq_nil_iff, List.reverse_eq_nil_iff, ← hopens] at hcase
    rw [List.foldl_append, foldl_takeIn_of_opens hcase, List.reverse_append]
  · intro hcase
    rw [List.reverse_eq_nil_iff, List.reverse_eq_nil_iff, ← hopens, not_or, not_or,
      Bool.not_eq_true] at hcase
    obtain ⟨hfirst, hsecond, hcontinues⟩ := hcase
    obtain ⟨previous, earlier, hsplit⟩ := List.exists_cons_of_ne_nil hfirst
    obtain ⟨newer, hnewer, hlength⟩ :=
      @foldl_takeIn_of_not_opens layout otherRaws earlier previous hsecond hcontinues
    rw [List.foldl_append, hsplit, hnewer, List.reverse_append, List.reverse_cons]
    constructor
    · simp only [List.length_append, List.length_reverse, List.length_cons, List.length_nil,
        hlength]
      omega
    · simp only [List.length_append, List.length_reverse, List.length_cons, List.length_nil,
        Nat.zero_add, Nat.add_sub_cancel]
      rw [← List.length_reverse, List.take_left, List.take_left]

end CompiledSheet

/-! ## Worksheets with the same header block -/

namespace HeaderBlock

open CompiledSheet (dataRows foldl_takeIn_agrees isRaw_of_rawRows ofWorksheet ofWorksheet_eq
  rawRows recordsOf recordsOf_append recordsOf_congr startsRecord toOption_rawRows)

/-- Some data rows below the block, within the rows that are looked at, compile to some records. -/
structure Compiles (rules : Rules) (block : HeaderBlock) (data : List CellRow) (sheet : Worksheet)
    (records : List Record) : Prop where
  isSheet : block.IsSheet data sheet
  room : block.rows.length + data.length ≤ rules.settings.maxRows
  header : ∃ schema, Schema.ofSheet rules sheet = .ok schema ∧
    schema.headerRows = block.rows.length
  compiled : (ofWorksheet rules sheet).toOption.map CompiledSheet.records = some records

variable {rules : Rules} {block : HeaderBlock} {first second data : List CellRow}
  {sheet other whole : Worksheet} {records others : List Record}

theorem Compiles.stopsAt (h : block.Compiles rules data sheet records) : rules.StopsAt data := by
  obtain ⟨schema, hschema, hheader⟩ := h.header
  obtain ⟨-, -, -, -, -, -, hstops, -⟩ := h.isSheet.ofSheet_eq_ok h.room hschema hheader
  exact hstops

theorem Compiles.stopsAt_append (h : block.Compiles rules first sheet records)
    (hother : block.Compiles rules second other others) : rules.StopsAt (first ++ second) := by
  cases first with
  | nil => exact hother.stopsAt
  | cons row rest => exact h.stopsAt

/-- Looking at other rows changes nothing for those that are taken in. -/
theorem agrees_rows (schema : Schema) (rows : Nat) (settings : Settings) :
    (Layout.mk { schema with rows := rows } settings).Agrees ⟨schema, settings⟩ :=
  ⟨fun _ => rfl, fun _ => rfl, fun _ => rfl⟩

/-- What data rows below the block compile to. -/
theorem IsSheet.compiled_eq (h : block.IsSheet data sheet) {schema : Schema}
    (hschema : Schema.ofSheet rules sheet =
      .ok { schema with rows := block.rows.length + data.length })
    (hheader : schema.headerRows = block.rows.length) :
    (ofWorksheet rules sheet).toOption.map CompiledSheet.records =
      recordsOf ⟨schema, rules.settings⟩ data := by
  have hlawful := Schema.lawful_ofSheet hschema
  have hcells : ∀ index row, data[index]? = some row → ∀ column ∈ schema.columns,
      sheet.cellText (block.rows.length + 1 + index) column.index = row column.index := by
    intro index row hget column hcolumn
    have hindex := hlawful.index column hcolumn
    exact h.cellText_data hget (by omega)
  have hdataRows : dataRows { schema with rows := block.rows.length + data.length } =
      List.range' (block.rows.length + 1) data.length := by
    show List.range' (schema.headerRows + 1)
      (block.rows.length + data.length - schema.headerRows) = _
    rw [hheader, Nat.add_sub_cancel_left]
  have hread := toOption_rawRows hcells
  rw [ofWorksheet_eq hschema, hdataRows, recordsOf, ← hread]
  cases hraws : rawRows sheet schema.columns (List.range' (block.rows.length + 1) data.length) with
  | error fault => rfl
  | ok raws =>
    show some (List.reverse _) = some (List.reverse _)
    rw [foldl_takeIn_agrees (agrees_rows schema _ rules.settings) (isRaw_of_rawRows hraws)]

/-- The schema of any worksheet with the block says what its data rows compile to. -/
theorem Compiles.recordsOf_eq (h : block.Compiles rules first sheet records) {schema : Schema}
    (hschema : Schema.ofSheet rules sheet = .ok schema)
    (hother : block.Compiles rules data other others) :
    recordsOf ⟨schema, rules.settings⟩ data = some others := by
  obtain ⟨found, hfound, hheader⟩ := h.header
  rw [hschema, Except.ok.injEq] at hfound
  subst hfound
  have hotherSchema := ofSheet_of_isSheet h.isSheet h.room hschema hheader hother.isSheet
    hother.room hother.stopsAt
  rw [← hother.isSheet.compiled_eq hotherSchema hheader, hother.compiled]

/-- A grid compiles below the block of its header rows. -/
theorem compiles_grid {name : String} {header data : List (List String)} {schema : Schema}
    {compiled : CompiledSheet} (hroom : header.length + data.length ≤ rules.settings.maxRows)
    (hschema : Schema.ofSheet rules (Grid.worksheet { name := name, rows := header ++ data }) =
      .ok schema) (hheader : schema.headerRows = header.length)
    (hcompiled : ofWorksheet rules (Grid.worksheet { name := name, rows := header ++ data }) =
      .ok compiled) :
    (HeaderBlock.ofTexts name header).Compiles rules (data.map CellRow.ofTexts)
      (Grid.worksheet { name := name, rows := header ++ data }) compiled.records := by
  have hlength : (HeaderBlock.ofTexts name header).rows.length = header.length := List.length_map _
  refine ⟨isSheet_grid name header data, ?_, ⟨schema, hschema, ?_⟩, ?_⟩
  · rwa [hlength, List.length_map]
  · rw [hheader, hlength]
  · rw [hcompiled]
    rfl

/-- The header rows of the inventory. -/
def inventoryHeader : List (List String) := CompiledSheet.inventory.rows.take 5

/-- The rows below them. -/
def inventoryRows : List (List String) := CompiledSheet.inventory.rows.drop 5

/-- Rows to be added to the inventory, of which the first one continues Bob's record. -/
def laterRows : List (List String) := [["", "", "Bow", "", ""], ["", "Cid", "", "", ""]]

end HeaderBlock

end SheetCompiler
