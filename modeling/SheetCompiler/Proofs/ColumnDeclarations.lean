import SheetCompiler.Proofs.Agreement
import SheetCompiler.Proofs.HeaderRows

/-!
# What columns declare

A column collects values under many keywords, but only four things count below the header: where the
column is, which field it fills, the type tags on the way there and the default
(`Column.declaration`).  All four are told by the texts of the column in the rows under the built-in
keywords (`Header.declaration_column`).  So it does not matter which further keywords a header has,
nor how the rows under different keywords are mixed.

Columns that declare the same are used alike (`Column.map_declaration_filter`), register the same types
and defaults in the same order, and read the same rows (`CompiledSheet.rawRows_of_declarations`).  So
headers with the same texts under the built-in keywords have the same fields
(`Schema.sameFields_of_ofSheet`), and with the same cells below them two worksheets compile to the
same, their metadata apart (`CompiledSheet.ofWorksheet_eq_of_sameFields`).
-/

namespace SheetCompiler

namespace Column

/-- What a column declares. -/
structure Declaration where
  /-- The number of the column. -/
  index : Nat
  /-- The names that lead to its field. -/
  segments : List String
  /-- The type tags along these names. -/
  types : List String
  /-- The text for blank cells. -/
  fallback : Option String
  deriving DecidableEq

/-- What the header says about a column, as far as it counts below the header. -/
def declaration (column : Column) : Declaration :=
  ⟨column.index, column.segments, column.types, column.fallback⟩

variable {columns others : List Column} {column other : Column}

theorem usable_of_declaration (h : column.declaration = other.declaration) (rules : Rules) :
    rules.usable column = rules.usable other := by
  have hsegments : column.segments = other.segments := congrArg Declaration.segments h
  have htypes : column.types = other.types := congrArg Declaration.types h
  rw [Rules.usable, Rules.usable, Rules.accepts, Rules.accepts, hsegments, htypes]

/-- The columns that can be used declare the same if all of them do. -/
theorem map_declaration_filter {indices : List Nat} {f g : Nat → Column} (rules : Rules)
    (h : ∀ index ∈ indices, (f index).declaration = (g index).declaration) :
    ((indices.map f).filter rules.usable).map declaration =
      ((indices.map g).filter rules.usable).map declaration := by
  induction indices with
  | nil => rfl
  | cons index rest ih =>
    obtain ⟨hindex, hrest⟩ := List.forall_mem_cons.mp h
    rw [List.map_cons, List.map_cons, List.filter_cons, List.filter_cons,
      usable_of_declaration hindex]
    split
    · rw [List.map_cons, List.map_cons, hindex, ih hrest]
    · exact ih hrest

/-- Columns that declare the same register the same types, in the same order. -/
theorem flatMap_typePairs_eq (h : columns.map declaration = others.map declaration) :
    columns.flatMap typePairs = others.flatMap typePairs := by
  have htold : ∀ columns : List Column, columns.flatMap typePairs =
      (columns.map declaration).flatMap fun told =>
        (FieldPath.ancestry "" told.segments).zip told.types := by
    intro columns
    rw [List.flatMap_map]
    rfl
  rw [htold, htold, h]

/-- Columns that declare the same register the same defaults, in the same order. -/
theorem filterMap_fallbackPair?_eq (h : columns.map declaration = others.map declaration) :
    columns.filterMap fallbackPair? = others.filterMap fallbackPair? := by
  have htold : ∀ columns : List Column, columns.filterMap fallbackPair? =
      (columns.map declaration).filterMap fun told =>
        told.fallback.map fun text => (FieldPath.ofSegments told.segments, text) := by
    intro columns
    rw [List.filterMap_map]
    rfl
  rw [htold, htold, h]

end Column

namespace Record

variable {sheet : Worksheet} {row : Nat} {columns others : List Column}

theorem addCell_of_declaration {column other : Column}
    (h : column.declaration = other.declaration) (record : Record) :
    addCell sheet row record column = addCell sheet row record other := by
  have hindex : column.index = other.index := congrArg Column.Declaration.index h
  have hsegments : column.segments = other.segments := congrArg Column.Declaration.segments h
  rw [addCell, addCell, Column.path, Column.path, hindex, hsegments]

theorem ofRow_of_declarations
    (h : columns.map Column.declaration = others.map Column.declaration) :
    ofRow sheet columns row = ofRow sheet others row := by
  have hsame := List.forall₂_map_left_iff.mp
    (List.forall₂_map_right_iff.mp (List.forall₂_eq_eq_eq ▸ h))
  clear h
  have hfold : ∀ record, columns.foldlM (addCell sheet row) record =
      others.foldlM (addCell sheet row) record := by
    induction hsame with
    | nil => exact fun _ => rfl
    | cons hcolumn _ ih =>
      intro record
      rw [List.foldlM_cons, List.foldlM_cons, addCell_of_declaration hcolumn, funext ih]
  exact hfold []

end Record

/-! ## Schemas with the same fields -/

/-- Two schemas declare the same fields and look at the same rows. -/
structure Schema.SameFields (schema other : Schema) : Prop where
  columns : schema.columns.map Column.declaration = other.columns.map Column.declaration
  types : schema.types = other.types
  fallbacks : schema.fallbacks = other.fallbacks
  headerRows : schema.headerRows = other.headerRows
  rows : schema.rows = other.rows

/-- What the texts of a column in some rows declare. -/
def Rules.declarationAt (rules : Rules) (sheet : Worksheet) (rows : List Nat) (index : Nat) :
    Column.Declaration :=
  ⟨index, rules.valuesUnder sheet rows Keyword.field index,
    rules.valuesUnder sheet rows Keyword.type index,
    (rules.valuesUnder sheet rows Keyword.fallback index).getLast?⟩

/-- What a column declares is told by its texts. -/
theorem Header.declaration_column {rules : Rules} {sheet : Worksheet} {header : Header}
    {rows : List Nat} {index : Nat} {column : Column}
    (hrows : header.keywordRows =
      rows.filterMap fun row => (rules.keyAt? sheet row).map fun key => (row, key))
    (h : header.column sheet index = .ok column) :
    column.declaration = rules.declarationAt sheet rows index := by
  rw [Column.declaration, Rules.declarationAt, index_column h, Column.segments, Column.types,
    fallback_column h, get_column hrows h, get_column hrows h, get_column hrows h]

namespace Schema

variable {rules otherRules : Rules} {sheet other : Worksheet} {schema otherSchema : Schema}

/-- Headers of the same height make schemas with the same fields out of columns that declare the
same. -/
theorem sameFields_ofColumns {header other : Header} (h : header.rows = other.rows) (rows : Nat)
    {columns others : List Column}
    (hcolumns : columns.map Column.declaration = others.map Column.declaration) :
    (ofColumns header rows columns).SameFields (ofColumns other rows others) where
  columns := hcolumns
  types := congrArg Entries.ofPairs (Column.flatMap_typePairs_eq hcolumns)
  fallbacks := congrArg Entries.ofPairs (Column.filterMap_fallbackPair?_eq hcolumns)
  headerRows := h
  rows := rfl

/-- Headers of the same height have the same fields if every column has the same texts under the
built-in keywords. -/
theorem sameFields_of_ofSheet (hschema : ofSheet rules sheet = .ok schema)
    (hother : ofSheet otherRules other = .ok otherSchema) (hextents : sheet.extent = other.extent)
    (hclip : rules.clip = otherRules.clip) (husable : rules.usable = otherRules.usable)
    (hheight : schema.headerRows = otherSchema.headerRows)
    (hvalues : ∀ extent, sheet.extent = some extent → ∀ key ∈ Keyword.builtIn,
      ∀ index ∈ rules.places extent,
        rules.valuesUnder sheet (List.range' 1 schema.headerRows) key index =
          otherRules.valuesUnder other (List.range' 1 otherSchema.headerRows) key index) :
    schema.SameFields otherSchema := by
  obtain ⟨extent, header, hextent, htakes, -, -, -, hcolumns, hsame⟩ :=
    exists_header_of_ofSheet hschema
  obtain ⟨otherExtent, otherHeader, hotherExtent, hotherTakes, -, -, -, hotherColumns,
    hotherSame⟩ := exists_header_of_ofSheet hother
  obtain rfl := Option.some.inj (hextent.symm.trans (hextents.trans hotherExtent))
  have hplaces : otherRules.places extent = rules.places extent := by
    rw [Rules.places, Rules.places, hclip]
  have hrows : header.rows = otherHeader.rows := by
    rw [htakes.height, hotherTakes.height, hheight]
  have hdeclared : ∀ index ∈ rules.places extent, (header.columnAt sheet index).declaration =
      (otherHeader.columnAt other index).declaration := by
    intro index hindex
    have hvalue := fun key hkey => hvalues extent hextent key hkey index hindex
    rw [Header.declaration_column htakes.keywordRows (hcolumns index hindex),
      Header.declaration_column hotherTakes.keywordRows (hotherColumns index (hplaces ▸ hindex)),
      Rules.declarationAt, Rules.declarationAt, hvalue Keyword.field (by decide),
      hvalue Keyword.type (by decide), hvalue Keyword.fallback (by decide)]
  rw [hsame, hotherSame, hplaces, ← hclip, ← husable]
  exact sameFields_ofColumns hrows _ (Column.map_declaration_filter rules hdeclared)

end Schema

namespace CompiledSheet

variable {rules otherRules : Rules} {sheet other : Worksheet} {schema otherSchema : Schema}

theorem rawRows_of_declarations {columns others : List Column}
    (h : columns.map Column.declaration = others.map Column.declaration) (rows : List Nat) :
    rawRows sheet columns rows = rawRows sheet others rows :=
  congrArg (fun read => rows.mapM read) (funext fun _ => Record.ofRow_of_declarations h)

/-- With schemas of the same fields, and with the same cells below the header, two worksheets compile
to the same but for the metadata, or fail for the same reason. -/
theorem ofWorksheet_eq_of_sameFields (hschema : Schema.ofSheet rules sheet = .ok schema)
    (hother : Schema.ofSheet otherRules other = .ok otherSchema)
    (h : schema.SameFields otherSchema) (hname : sheet.name = other.name)
    (hagrees : (Layout.mk schema rules.settings).Agrees ⟨schema, otherRules.settings⟩)
    (hcells : ∀ row ∈ dataRows schema, ∀ column ∈ schema.columns,
      sheet.cellText row column.index = other.cellText row column.index) :
    ofWorksheet otherRules other = (ofWorksheet rules sheet).map fun compiled =>
      { compiled with metadata := otherSchema.metadata } := by
  have hrows : dataRows schema = dataRows otherSchema := by
    rw [dataRows, dataRows, Schema.dataStart, Schema.dataStart, h.headerRows, h.rows]
  have hraws : rawRows sheet schema.columns (dataRows schema) =
      rawRows other otherSchema.columns (dataRows otherSchema) := by
    rw [← hrows, ← rawRows_of_declarations h.columns]
    refine rawRows_congr fun row hrow => Record.ofRow_congr hname fun column hcolumn => ?_
    rw [hcells row hrow column hcolumn]
  have hlayouts : (Layout.mk schema rules.settings).Agrees ⟨otherSchema, otherRules.settings⟩ :=
    hagrees.trans (Layout.agrees_of_get? otherRules.settings (fun path => by rw [h.types])
      fun path => by rw [h.fallbacks])
  rw [ofWorksheet_eq hschema, ofWorksheet_eq hother, ← hraws]
  cases hread : rawRows sheet schema.columns (dataRows schema) with
  | error fault => rfl
  | ok raws =>
    have hrecords := foldl_takeIn_agrees hlayouts (isRaw_of_rawRows hread) []
    simp only [Except.map, hrecords, h.types, hname]

end CompiledSheet

end SheetCompiler
