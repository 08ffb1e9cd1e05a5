import SheetCompiler.Proofs.Agreement
import SheetCompiler.Proofs.BlankedColumns
import SheetCompiler.Proofs.DeclaredSchema

/-!
# Columns that are left out

A column whose names and type tags do not fit together, or do not pass the checks of strict mode, is
left out (`Rules.Drops`).  It might as well have nothing in its header: with such columns blanked,
and without any check of strict mode, a worksheet compiles to what it compiles to with them
(`CompiledSheet.ofWorksheet_lenient_eq`).

Strict mode does not matter to the header rows (`Header.scan_lenient`) nor to the records of a
schema (`CompiledSheet.agrees_lenient`).  In between, a column is read alike and used by both if it
can be used, and adds nothing to either if it cannot (`Rules.Blanks.addColumn_eq`).
-/

namespace SheetCompiler

namespace Rules

variable {rules : Rules}

/-- The rules without the checks of strict mode. -/
def lenient (rules : Rules) : Rules :=
  { rules with settings := { rules.settings with strict := false } }

/-- The rules of the same settings with strict mode switched off. -/
theorem ofSettings_lenient {settings : Settings} (h : ofSettings settings = .ok rules) :
    ofSettings { settings with strict := false } = .ok rules.lenient := by
  obtain ⟨hcheck, identifier, hidentifier, rfl⟩ := ofSettings_eq_ok.mp h
  exact ofSettings_eq_ok.mpr ⟨hcheck, identifier, hidentifier, rfl⟩

/-- A column that can be used in strict mode can be used without it. -/
theorem Admits.lenient {names tags : List String} (h : rules.Admits names tags) :
    rules.lenient.Admits names tags :=
  ⟨h.1, h.2.1, fun hstrict => absurd hstrict Bool.false_ne_true⟩

/-- The texts of a column say that it cannot be used. -/
def Drops (rules : Rules) (sheet : Worksheet) (extent : Extent) (column : Nat) : Prop :=
  ¬ rules.Admits (rules.valuesUnder sheet (rules.headerRows sheet extent) Keyword.field column)
    (rules.valuesUnder sheet (rules.headerRows sheet extent) Keyword.type column)

instance (rules : Rules) (sheet : Worksheet) (extent : Extent) :
    DecidablePred (rules.Drops sheet extent) :=
  fun _ => inferInstanceAs (Decidable (¬ _))

end Rules

/-- Header rows are read alike with and without strict mode. -/
theorem Header.scan_lenient (rules : Rules) (sheet : Worksheet) (columns : Nat) :
    ∀ (count row : Nat) (header : Header),
      scan rules.lenient sheet columns count row header = scan rules sheet columns count row header
  | 0, _, _ => rfl
  | count + 1, row, header => by
    rw [scan_succ, scan_succ]
    simp only [scan_lenient rules sheet columns count]
    rfl

namespace Rules.Blanks

variable {rules : Rules} {sheet other : Worksheet} {extent : Extent} {header : Header}

/-- Each column that can be read adds the same. -/
theorem addColumn_eq (h : rules.Blanks (rules.Drops sheet) sheet other)
    (hextent : sheet.extent = some extent)
    (htakes : Header.Takes rules sheet (rules.clip extent).columns (rules.headerRows sheet extent)
      {} header) {index : Nat} (hindex : index ∈ rules.places extent)
    (hread : ∃ column, header.column sheet index = .ok column) (before : Schema) :
    Schema.addColumn rules sheet header before index =
      Schema.addColumn rules.lenient other header before index := by
  obtain ⟨column, hcolumn⟩ := hread
  have hget := Header.get_column htakes.keywordRows hcolumn
  rw [Schema.addColumn, Schema.addColumn, hcolumn]
  by_cases hadmits : rules.Admits column.segments column.types
  · have hkept : ¬ rules.Drops sheet extent index := by
      rw [Drops, ← hget, ← hget]
      exact not_not_intro hadmits
    rw [← h.column_eq hextent hkept, hcolumn]
    show (Except.ok _ : Except SheetFault Schema) = .ok _
    rw [if_pos (usable_iff.mpr hadmits), if_pos (usable_iff.mpr hadmits.lenient)]
  · have hdrops : rules.Drops sheet extent index := by
      rw [Drops, ← hget, ← hget]
      exact hadmits
    have hnone : ¬ rules.lenient.Admits [] [] := fun hadmits => by cases hadmits.2.1
    rw [h.column_of_blanked hextent htakes hindex hdrops]
    show (Except.ok _ : Except SheetFault Schema) = .ok _
    rw [if_neg (mt usable_iff.mp hadmits), if_neg (mt usable_iff.mp hnone)]

/-- Both worksheets have the same columns. -/
theorem build_eq (h : rules.Blanks (rules.Drops sheet) sheet other)
    (hextent : sheet.extent = some extent)
    (htakes : Header.Takes rules sheet (rules.clip extent).columns (rules.headerRows sheet extent)
      {} header)
    (hread : ∀ index ∈ rules.places extent, ∃ column, header.column sheet index = .ok column) :
    Schema.build rules sheet header (rules.clip extent).rows (rules.clip extent).columns =
      Schema.build rules.lenient other header (rules.clip extent).rows
        (rules.clip extent).columns := by
  rw [Schema.build, Schema.build, h.name]
  have hfold := @foldlM_congr _ _ _ (Schema.addColumn rules sheet header)
    (Schema.addColumn rules.lenient other header)
    (List.range' (Worksheet.markerColumn + 1)
      ((rules.clip extent).columns - Worksheet.markerColumn)) ?_
  · simp only [hfold]
  · intro index hindex before
    exact h.addColumn_eq hextent htakes hindex (hread index hindex) before

/-- Both worksheets have the same schema, or fail for the same reason. -/
theorem ofSheet_eq (h : rules.Blanks (rules.Drops sheet) sheet other)
    (hread : rules.CanRead sheet) :
    Schema.ofSheet rules sheet = Schema.ofSheet rules.lenient other := by
  rw [Schema.ofSheet, Schema.ofSheet, ← h.extent]
  cases hextent : sheet.extent with
  | none => rw [h.name]
  | some extent =>
    show (Header.scan rules sheet (rules.clip extent).columns (rules.clip extent).rows 1 {}).bind
        (fun header => Schema.build rules sheet header (rules.clip extent).rows
          (rules.clip extent).columns) =
      (Header.scan rules.lenient other (rules.clip extent).columns
        (rules.clip extent).rows 1 {}).bind
        (fun header => Schema.build rules.lenient other header (rules.clip extent).rows
          (rules.clip extent).columns)
    rw [Header.scan_lenient, ← h.scan_eq hextent]
    cases hscan : Header.scan rules sheet (rules.clip extent).columns
      (rules.clip extent).rows 1 {} with
    | error fault => rfl
    | ok header =>
      have htakes := Header.takes_headerRows hscan
      exact h.build_eq hextent htakes fun index hindex =>
        Header.exists_column_of_canRead hread hextent htakes hindex

end Rules.Blanks

/-! ## The records -/

namespace CompiledSheet

variable {rules : Rules} {sheet other : Worksheet} {extent : Extent} {schema : Schema}

/-- No column of the schema is left out. -/
theorem not_drops_of_ofSheet (hextent : sheet.extent = some extent)
    (hschema : Schema.ofSheet rules sheet = .ok schema) :
    ∀ column ∈ schema.columns, ¬ rules.Drops sheet extent column.index := by
  intro column hcolumn
  obtain ⟨-, hget, -, hadmits⟩ := Schema.column_of_ofSheet hextent hschema column hcolumn
  rw [Column.segments, Column.types, hget, hget] at hadmits
  rw [Rules.Drops, headerRows_of_ofSheet hextent hschema]
  exact not_not_intro hadmits

/-- Strict mode does not matter to the records of a schema. -/
theorem agrees_lenient (rules : Rules) (schema : Schema) :
    (Layout.mk schema rules.settings).Agrees ⟨schema, rules.lenient.settings⟩ :=
  ⟨fun _ => rfl, fun _ => rfl, fun _ => rfl⟩

/-- Both worksheets compile to the same, or fail for the same reason. -/
theorem ofWorksheet_eq_of_blanks (h : rules.Blanks (rules.Drops sheet) sheet other)
    (hread : rules.CanRead sheet) :
    ofWorksheet rules sheet = ofWorksheet rules.lenient other := by
  have hschemas := h.ofSheet_eq hread
  cases hschema : Schema.ofSheet rules sheet with
  | error fault =>
    rw [ofWorksheet, ofWorksheet, ← hschemas, hschema]
    rfl
  | ok schema =>
    have hother : Schema.ofSheet rules.lenient other = .ok schema := by rw [← hschemas, hschema]
    obtain ⟨extent, -, hextent, -⟩ := Schema.ofSheet_eq_ok hschema
    rw [ofWorksheet_eq hschema, ofWorksheet_eq hother, h.name,
      h.rawRows_eq hextent (notMem_headerRows_of_mem_dataRows hextent hschema)]
    cases hraws : rawRows other schema.columns (dataRows schema) with
    | error fault => rfl
    | ok raws =>
      have hrecords := foldl_takeIn_agrees (agrees_lenient rules schema)
        (isRaw_of_rawRows hraws) []
      simp only [Except.map, hrecords]

/-- A column that is left out might as well have nothing in its header.  With such columns blanked,
and without the checks of strict mode, a worksheet has the same schema and compiles to the same, or
fails for the same reason.  None of these columns is one of the schema. -/
theorem ofWorksheet_lenient_eq (hread : rules.CanRead sheet) :
    (∀ other, rules.Blanks (rules.Drops sheet) sheet other →
      Schema.ofSheet rules.lenient other = Schema.ofSheet rules sheet ∧
        ofWorksheet rules.lenient other = ofWorksheet rules sheet) ∧
    ∀ extent schema, sheet.extent = some extent → Schema.ofSheet rules sheet = .ok schema →
      ∀ column ∈ schema.columns, ¬ rules.Drops sheet extent column.index := by
  refine ⟨fun other h => ⟨?_, ?_⟩,
    fun extent schema hextent hschema => not_drops_of_ofSheet hextent hschema⟩
  · exact (h.ofSheet_eq hread).symm
  · exact (ofWorksheet_eq_of_blanks h hread).symm

/-- A market with three columns that strict mode leaves out: a name that is no identifier, a type
that is not known, and a name without a type. -/
def market : Grid where
  name := "Market"
  rows := [
    ["#var", "Name", "2nd", "Price", "Size", "Tags"],
    ["#type", "string", "int", "money", "", "list"],
    ["#default", "", "0", "1", "big", ""],
    ["#note", "", "kept"],
    ["", "Apple", "x", "y", "z", "sweet"],
    ["", "", "", "3", "", "red"]]

/-- What the market compiles to. -/
def marketRecords : List Record :=
  [[("Name", .scalar "Apple"), ("Tags", .list [.scalar "sweet", .scalar "red"])]]

/-- In strict mode the market compiles to what it compiles to without these columns. -/
theorem market_ofWorksheet_lenient : ∃ rules lenient compiled,
    Rules.ofSettings { strict := true } = .ok rules ∧ Rules.ofSettings {} = .ok lenient ∧
    rules.CanRead market.worksheet ∧
    rules.Blanks (rules.Drops market.worksheet) market.worksheet
      (rules.blankColumns (rules.Drops market.worksheet) market.worksheet) ∧
    ofWorksheet rules market.worksheet = .ok compiled ∧
    ofWorksheet lenient (rules.blankColumns (rules.Drops market.worksheet) market.worksheet) =
      .ok compiled ∧
    compiled.records = marketRecords ∧ compiled.metadata = [("note", "kept")] := by
  have hsome : ((Rules.ofSettings { strict := true }).toOption.bind fun rules =>
      (ofWorksheet rules market.worksheet).toOption.map fun compiled =>
        (compiled.records, compiled.metadata)) = some (marketRecords, [("note", "kept")]) := by
    decide +kernel
  obtain ⟨rules, hrules, hsome⟩ := Option.bind_eq_some_iff.mp hsome
  obtain ⟨compiled, hcompiled, hboth⟩ := Option.map_eq_some_iff.mp hsome
  obtain ⟨hrecords, hmetadata⟩ := Prod.mk.inj hboth
  have hrules := eq_ok_of_toOption hrules
  have hcompiled := eq_ok_of_toOption hcompiled
  have hread := canRead_grid rules (show market.merged = [] from rfl)
  have hblank := rules.blanks_blankColumns (rules.Drops market.worksheet) market.worksheet
  obtain ⟨hsame, -⟩ := ofWorksheet_lenient_eq hread
  exact ⟨rules, rules.lenient, compiled, hrules, Rules.ofSettings_lenient hrules, hread, hblank,
    hcompiled, (hsame _ hblank).2.trans hcompiled, hrecords, hmetadata⟩

end CompiledSheet

end SheetCompiler
