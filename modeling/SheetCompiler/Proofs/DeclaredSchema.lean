import SheetCompiler.Proofs.HeaderRows

/-!
# What a header declares, entry by entry

`Schema.IsDeclaredBy` says which schema a worksheet has without reading it in any order: which rows
are header rows, which columns are used, and what stands under each path and each note.  The rules
of overwriting are part of it.  A path takes its type from the last column that has it on its way,
its default from the last column that ends there and has one, and a note its value from the first
text in its rows.

Every schema that is read is declared in this way (`Schema.isDeclaredBy_of_ofSheet`).  The types and
defaults come down to pairs that are written one after another: the names keep their first place
(`Entries.names_ofPairs`), the values are the last ones (`Entries.get?_ofPairs_append_cons`).
-/

namespace SheetCompiler

namespace Entries

variable {α : Type}

/-- Each name stands where it was written first. -/
theorem names_ofPairs (pairs : Entries α) : names (ofPairs pairs) = (names pairs).eraseDups := by
  induction pairs using List.reverseRecOn with
  | nil => rfl
  | append_singleton pairs pair ih =>
    have hput : ofPairs (pairs ++ [pair]) = put pair.1 pair.2 (ofPairs pairs) := by
      rw [ofPairs, List.foldl_append]
      rfl
    have hnames : names (pairs ++ [pair]) = names pairs ++ [pair.1] := List.map_append
    rw [hput, hnames, Outline.eraseDups_append_singleton]
    by_cases hmem : pair.1 ∈ names pairs
    · have hold : pair.1 ∈ names (ofPairs pairs) := by rwa [ih, List.mem_eraseDups]
      rw [names_put_of_mem hold, ih, if_pos (List.contains_iff_mem.mpr hmem)]
    · have hnew : pair.1 ∉ names (ofPairs pairs) := by rwa [ih, List.mem_eraseDups]
      rw [names_put_of_notMem hnew, ih, if_neg (mt List.contains_iff_mem.mp hmem)]

theorem get?_foldl_put_of_notMem {name : String} {pairs entries : Entries α}
    (h : name ∉ names pairs) :
    get? name (pairs.foldl (fun entries pair => put pair.1 pair.2 entries) entries) =
      get? name entries := by
  induction pairs generalizing entries with
  | nil => rfl
  | cons pair rest ih =>
    rw [names_cons, List.mem_cons, not_or] at h
    rw [List.foldl_cons, ih h.2, get?_put_of_ne h.1]

/-- Each name has the value that was written last. -/
theorem get?_ofPairs_append_cons {name : String} {front back : Entries α} (value : α)
    (h : name ∉ names back) :
    get? name (ofPairs (front ++ (name, value) :: back)) = some value := by
  rw [ofPairs, List.foldl_append, List.foldl_cons, get?_foldl_put_of_notMem h, get?_put_self]

end Entries

/-! ## The paths of a column -/

theorem FieldPath.ancestry_eq_map (path : String) (segments : List String) :
    ancestry path segments = (List.range segments.length).map fun depth =>
      (segments.take (depth + 1)).foldl extend path := by
  induction segments generalizing path with
  | nil => rfl
  | cons segment rest ih =>
    rw [ancestry_cons, ih, List.length_cons, List.range_succ_eq_map, List.map_cons, List.map_map]
    rfl

namespace Column

/-- The dotted paths on the way to the column's field, the shallowest first. -/
def ancestors (column : Column) : List String :=
  (List.range column.segments.length).map fun depth =>
    FieldPath.ofSegments (column.segments.take (depth + 1))

theorem ancestors_eq (column : Column) :
    column.ancestors = FieldPath.ancestry "" column.segments :=
  (FieldPath.ancestry_eq_map "" column.segments).symm

/-- A column registers a type for each of its paths. -/
theorem names_typePairs {column : Column} (h : column.segments.length = column.types.length) :
    Entries.names column.typePairs = column.ancestors := by
  rw [typePairs, Entries.names, List.map_fst_zip, ancestors_eq]
  rw [FieldPath.length_ancestry, h]

/-- A column registers each of its paths once. -/
theorem exists_typePairs_eq {column : Column}
    (hsegments : ∀ segment ∈ column.segments, segment.isEmpty = false)
    (hlength : column.segments.length = column.types.length) {path tag : String}
    (h : (path, tag) ∈ column.typePairs) :
    ∃ front back, column.typePairs = front ++ (path, tag) :: back ∧
      path ∉ Entries.names back := by
  obtain ⟨front, back, hsplit⟩ := List.append_of_mem h
  refine ⟨front, back, hsplit, ?_⟩
  have hnodup := FieldPath.nodup_ancestry "" hsegments
  rw [← ancestors_eq, ← names_typePairs hlength, hsplit, Entries.names, List.map_append,
    List.map_cons, List.nodup_append, List.nodup_cons] at hnodup
  exact hnodup.2.1.1

/-- The columns with a default register it for their paths. -/
theorem names_fallbackPairs (columns : List Column) :
    Entries.names (columns.filterMap fallbackPair?) =
      (columns.filter fun column => column.fallback.isSome).map path := by
  induction columns with
  | nil => rfl
  | cons column rest ih =>
    cases hfallback : column.fallback with
    | none =>
      rw [List.filterMap_cons_none (by rw [fallbackPair?, hfallback]; rfl),
        List.filter_cons_of_neg (by rw [hfallback]; exact Bool.false_ne_true), ih]
    | some text =>
      rw [List.filterMap_cons_some (by rw [fallbackPair?, hfallback]; rfl),
        List.filter_cons_of_pos (by rw [hfallback]; rfl), Entries.names_cons, ih, List.map_cons]

end Column

/-! ## Declared schemas -/

/-- The cell of a row in the marker column begins with the marker. -/
def Rules.Marked (rules : Rules) (sheet : Worksheet) (row : Nat) : Prop :=
  ∃ text, sheet.cellText row Worksheet.markerColumn = .ok (some text) ∧
    rules.settings.marker.toList <+: (Text.trim text).toList

/-- Settings that pass their check have a marker. -/
theorem Rules.marker_of_ofSettings {settings : Settings} {rules : Rules}
    (h : ofSettings settings = .ok rules) : rules.settings.marker.isEmpty = false := by
  obtain ⟨hcheck, identifier, -, rfl⟩ := ofSettings_eq_ok.mp h
  obtain ⟨hvalues, -⟩ := (Settings.check_eq_ok_iff settings).mp hcheck
  exact ((Settings.checkValues_eq_ok_iff settings).mp hvalues).2.2.1

theorem Rules.isSome_keywordAt?_iff {rules : Rules} {sheet : Worksheet} {row : Nat}
    (h : rules.settings.marker.isEmpty = false) :
    (rules.keywordAt? sheet row).isSome ↔ rules.Marked sheet row := by
  have hmarker : rules.settings.marker.toList ≠ [] := FieldPath.toList_ne_nil h
  rw [keywordAt?, Marked]
  cases sheet.cellText row Worksheet.markerColumn with
  | error fault => simp [Except.toOption]
  | ok cell =>
    cases cell with
    | none => simp [Except.toOption]
    | some text =>
      by_cases hblank : (Text.trim text).isEmpty = true
      · have hnil : (Text.trim text).toList = [] := by
          rw [String.isEmpty_iff.mp hblank]
          rfl
        simp [Except.toOption, Text.filled?, hblank, hnil, hmarker]
      · simp [Except.toOption, Text.filled?, hblank, Header.keyword?]

namespace Schema

/-- A schema has what the header of a worksheet declares. -/
structure IsDeclaredBy (schema : Schema) (rules : Rules) (sheet : Worksheet) (extent : Extent) :
    Prop where
  /-- The header rows are looked at. -/
  within : schema.headerRows ≤ min extent.rows rules.settings.maxRows
  /-- They are marked, from the first row on. -/
  marked : ∀ row, 0 < row → row ≤ schema.headerRows → rules.Marked sheet row
  /-- The row below them is not marked, if it is looked at. -/
  below : schema.headerRows < min extent.rows rules.settings.maxRows →
    ¬ rules.Marked sheet (schema.headerRows + 1)
  /-- The columns go from left to right. -/
  sorted : (schema.columns.map Column.index).Pairwise (· < ·)
  /-- A column is used if the texts in its cells say so. -/
  used : ∀ index, index ∈ schema.columns.map Column.index ↔
    Worksheet.markerColumn < index ∧ index ≤ min extent.columns rules.settings.maxColumns ∧
      rules.Admits
        (rules.valuesUnder sheet (List.range' 1 schema.headerRows) Keyword.field index)
        (rules.valuesUnder sheet (List.range' 1 schema.headerRows) Keyword.type index)
  /-- A column has the texts in its cells. -/
  values : ∀ column ∈ schema.columns, ∀ key, column.get key =
    rules.valuesUnder sheet (List.range' 1 schema.headerRows) key column.index
  /-- The default of a column is the lowest one. -/
  lowest : ∀ column ∈ schema.columns, column.fallback =
    (rules.valuesUnder sheet (List.range' 1 schema.headerRows) Keyword.fallback
      column.index).getLast?
  /-- There is a type for every path on the way to a field, in order of first appearance. -/
  typed : Entries.names schema.types = (schema.columns.flatMap Column.ancestors).eraseDups
  /-- The type of a path is the tag at its depth in the last column that has it on its way. -/
  type : ∀ (front : List Column) (column : Column) (back : List Column),
    schema.columns = front ++ column :: back → ∀ path tag,
    (path, tag) ∈ column.ancestors.zip column.types → (∀ later ∈ back, path ∉ later.ancestors) →
    Entries.get? path schema.types = some tag
  /-- There is a default for the path of every column that has one. -/
  filled : Entries.names schema.fallbacks =
    ((schema.columns.filter fun column => column.fallback.isSome).map Column.path).eraseDups
  /-- The default of a path is that of the last column with that path that has one. -/
  fallback : ∀ (front : List Column) (column : Column) (back : List Column),
    schema.columns = front ++ column :: back → ∀ text, column.fallback = some text →
    (∀ later ∈ back, later.path = column.path → later.fallback = none) →
    Entries.get? column.path schema.fallbacks = some text
  /-- No note has two values. -/
  notes : (Entries.names schema.metadata).Nodup
  /-- The value of a note is the first text in its rows. -/
  note : ∀ note, Entries.get? note schema.metadata =
    (rules.textsOf sheet (min extent.columns rules.settings.maxColumns)
      (List.range' 1 schema.headerRows) note).head?

variable {columns front back : List Column} {column : Column}

/-- The last column with a path on its way types it. -/
theorem get?_types (hsegments : ∀ segment ∈ column.segments, segment.isEmpty = false)
    (hlength : ∀ other ∈ front ++ column :: back, other.segments.length = other.types.length)
    {path tag : String} (h : (path, tag) ∈ column.ancestors.zip column.types)
    (hlater : ∀ later ∈ back, path ∉ later.ancestors) :
    Entries.get? path
      (Entries.ofPairs ((front ++ column :: back).flatMap Column.typePairs)) = some tag := by
  rw [Column.ancestors_eq, ← Column.typePairs] at h
  obtain ⟨hcolumn, hback⟩ := List.forall_mem_cons.mp (List.forall_mem_append.mp hlength).2
  obtain ⟨first, last, hsplit, hlast⟩ := Column.exists_typePairs_eq hsegments hcolumn h
  have hpairs : (front ++ column :: back).flatMap Column.typePairs =
      (front.flatMap Column.typePairs ++ first) ++
        (path, tag) :: (last ++ back.flatMap Column.typePairs) := by
    rw [List.flatMap_append, List.flatMap_cons, hsplit]
    simp
  rw [hpairs]
  refine Entries.get?_ofPairs_append_cons tag ?_
  rw [Entries.names, List.map_append, List.mem_append, not_or]
  refine ⟨hlast, fun hmem => ?_⟩
  obtain ⟨pair, hpair, hpath⟩ := List.mem_map.mp hmem
  obtain ⟨later, hmemLater, hpair⟩ := List.mem_flatMap.mp hpair
  refine hlater later hmemLater ?_
  rw [← Column.names_typePairs (hback later hmemLater), ← hpath]
  exact Entries.mem_names_of_mem hpair

/-- The last column with a path that has a default gives it to the path. -/
theorem get?_fallbacks {text : String} (h : column.fallback = some text)
    (hlater : ∀ later ∈ back, later.path = column.path → later.fallback = none) :
    Entries.get? column.path
      (Entries.ofPairs ((front ++ column :: back).filterMap Column.fallbackPair?)) =
        some text := by
  rw [List.filterMap_append,
    List.filterMap_cons_some (show column.fallbackPair? = some (column.path, text) by
      rw [Column.fallbackPair?, h, Option.map_some])]
  refine Entries.get?_ofPairs_append_cons text ?_
  rw [Column.names_fallbackPairs]
  intro hmem
  obtain ⟨later, hlaterMem, hpath⟩ := List.mem_map.mp hmem
  obtain ⟨hmemLater, hsome⟩ := List.mem_filter.mp hlaterMem
  rw [hlater later hmemLater hpath] at hsome
  cases hsome

/-- The types of all columns are named by the paths on their ways. -/
theorem names_typePairs
    (hlength : ∀ column ∈ columns, column.segments.length = column.types.length) :
    Entries.names (columns.flatMap Column.typePairs) = columns.flatMap Column.ancestors := by
  rw [Entries.names, List.map_flatMap]
  exact List.flatMap_congr fun column hcolumn => Column.names_typePairs (hlength column hcolumn)

/-- The columns of a schema are read and can be used. -/
theorem column_of_ofSheet {rules : Rules} {sheet : Worksheet} {extent : Extent} {schema : Schema}
    (hextent : sheet.extent = some extent) (h : ofSheet rules sheet = .ok schema) :
    ∀ column ∈ schema.columns, column.index ∈ rules.places extent ∧
      (∀ key, column.get key =
        rules.valuesUnder sheet (List.range' 1 schema.headerRows) key column.index) ∧
      column.fallback = (column.get Keyword.fallback).getLast? ∧
      rules.Admits column.segments column.types := by
  obtain ⟨same, header, hsame, htakes, -, -, -, hread, hschema⟩ := exists_header_of_ofSheet h
  obtain rfl := Option.some.inj (hextent.symm.trans hsame)
  intro column hcolumn
  rw [congrArg Schema.columns hschema, ofColumns, List.mem_filter, List.mem_map] at hcolumn
  obtain ⟨⟨index, hindex, rfl⟩, husable⟩ := hcolumn
  rw [Header.index_columnAt]
  exact ⟨hindex, Header.get_column htakes.keywordRows (hread index hindex),
    Header.fallback_column (hread index hindex), Rules.usable_iff.mp husable⟩

/-- A column is there if it can be used. -/
theorem mem_columns_iff_of_ofSheet {rules : Rules} {sheet : Worksheet} {extent : Extent}
    {schema : Schema} (hextent : sheet.extent = some extent)
    (h : ofSheet rules sheet = .ok schema) {index : Nat} :
    index ∈ schema.columns.map Column.index ↔ index ∈ rules.places extent ∧
      rules.Admits
        (rules.valuesUnder sheet (List.range' 1 schema.headerRows) Keyword.field index)
        (rules.valuesUnder sheet (List.range' 1 schema.headerRows) Keyword.type index) := by
  constructor
  · intro hmem
    obtain ⟨column, hcolumn, rfl⟩ := List.mem_map.mp hmem
    obtain ⟨hindex, hget, -, hadmits⟩ := column_of_ofSheet hextent h column hcolumn
    rw [Column.segments, Column.types, hget, hget] at hadmits
    exact ⟨hindex, hadmits⟩
  · rintro ⟨hindex, hadmits⟩
    obtain ⟨same, header, hsame, htakes, -, -, -, hread, hschema⟩ := exists_header_of_ofSheet h
    obtain rfl := Option.some.inj (hextent.symm.trans hsame)
    have hget := Header.get_column htakes.keywordRows (hread index hindex)
    refine List.mem_map.mpr ⟨header.columnAt sheet index, ?_, Header.index_columnAt _ _ _⟩
    rw [congrArg Schema.columns hschema, ofColumns, List.mem_filter, Rules.usable_iff,
      Column.segments, Column.types, hget, hget]
    exact ⟨List.mem_map_of_mem hindex, hadmits⟩

/-- The header rows are the marked ones from the first row on. -/
theorem marked_of_ofSheet {rules : Rules} {sheet : Worksheet} {extent : Extent} {schema : Schema}
    (hmarker : rules.settings.marker.isEmpty = false) (hextent : sheet.extent = some extent)
    (h : ofSheet rules sheet = .ok schema) :
    schema.headerRows ≤ min extent.rows rules.settings.maxRows ∧
      (∀ row, 0 < row → row ≤ schema.headerRows → rules.Marked sheet row) ∧
      (schema.headerRows < min extent.rows rules.settings.maxRows →
        ¬ rules.Marked sheet (schema.headerRows + 1)) := by
  obtain ⟨same, header, hsame, -, hle, hmarked, hstops, -, -⟩ := exists_header_of_ofSheet h
  obtain rfl := Option.some.inj (hextent.symm.trans hsame)
  refine ⟨hle, fun row hpos hrow => ?_, fun hlt => ?_⟩
  · exact (Rules.isSome_keywordAt?_iff hmarker).mp
      (hmarked row (List.mem_range'_1.mpr ⟨hpos, by omega⟩))
  · rw [← Rules.isSome_keywordAt?_iff hmarker, Nat.add_comm, hstops hlt]
    exact Bool.false_ne_true

/-- The schema of a worksheet is the one that its header declares. -/
theorem isDeclaredBy_of_ofSheet {rules : Rules} {sheet : Worksheet} {schema : Schema}
    (hmarker : rules.settings.marker.isEmpty = false) (h : ofSheet rules sheet = .ok schema) :
    ∃ extent, sheet.extent = some extent ∧ schema.IsDeclaredBy rules sheet extent := by
  obtain ⟨extent, header, hextent, htakes, -, -, -, -, hschema⟩ := exists_header_of_ofSheet h
  obtain ⟨hwithin, hmarked, hbelow⟩ := marked_of_ofSheet hmarker hextent h
  have hcolumn := column_of_ofSheet hextent h
  have hlength : ∀ column ∈ schema.columns, column.segments.length = column.types.length :=
    fun column hmem => (hcolumn column hmem).2.2.2.1
  obtain ⟨htypes, hfallbacks⟩ := maps_of_ofSheet h
  refine ⟨extent, hextent, ?_⟩
  constructor
  case within => exact hwithin
  case marked => exact hmarked
  case below => exact hbelow
  case sorted => exact List.pairwise_map.mpr (sorted_of_ofSheet h)
  case used =>
    intro index
    rw [mem_columns_iff_of_ofSheet hextent h, Rules.mem_places, and_assoc]
    rfl
  case values => exact fun column hmem => (hcolumn column hmem).2.1
  case lowest =>
    intro column hmem
    obtain ⟨-, hget, hlast, -⟩ := hcolumn column hmem
    rw [hlast, hget]
  case typed => rw [htypes, Entries.names_ofPairs, names_typePairs hlength]
  case type =>
    intro front column back hsplit path tag hpair hlater
    have hmem : column ∈ schema.columns := by
      rw [hsplit]
      exact List.mem_append_right _ List.mem_cons_self
    have hsegments := ((lawful_ofSheet h).segments column hmem).2
    rw [hsplit] at hlength htypes
    rw [htypes, get?_types hsegments hlength hpair hlater]
  case filled => rw [hfallbacks, Entries.names_ofPairs, Column.names_fallbackPairs]
  case fallback =>
    intro front column back hsplit text htext hlater
    rw [hfallbacks, hsplit, get?_fallbacks htext hlater]
  case notes => exact (nodup_names_of_ofSheet h).2.2
  case note =>
    intro note
    rw [congrArg Schema.metadata hschema]
    exact (htakes.metadata note).trans Option.none_or

/-- A stock with several rows under each keyword, a note that comes twice and one without a text.
The third column has a name without a type tag. -/
def stock : Grid where
  name := "Stock"
  rows := [
    ["#about", "", "what is there", "and where"],
    ["#var", "Item", "Item", "Shelf", "Item", "Item"],
    ["#var", "Name", "Count", "Row", "Count", "Size"],
    ["#"],
    ["#type", "list", "list", "string", "group", "group"],
    ["#default", "none", "0", "A", ""],
    ["#type", "string", "int", "", "float", "int"],
    ["#about", "again"],
    ["#seen", "", ""],
    ["#default", "", "1", "B"],
    ["", "Apple", "2", "", "", "small"]]

/-- The last columns type the items and their count, and the count has the lowest default. -/
theorem stock_isDeclaredBy : ∃ rules schema, Rules.ofSettings {} = .ok rules ∧
    ofSheet rules stock.worksheet = .ok schema ∧
    schema.IsDeclaredBy rules stock.worksheet stock.extent ∧
    schema.columns.map Column.index = [2, 3, 5, 6] ∧
    schema.types = [("Item", "group"), ("Item.Name", "string"), ("Item.Count", "float"),
      ("Item.Size", "int")] ∧
    schema.fallbacks = [("Item.Name", "none"), ("Item.Count", "1")] ∧
    schema.metadata = [("about", "what is there")] ∧ schema.headerRows = 10 := by
  have hsome : ((Rules.ofSettings {}).toOption.bind fun rules =>
      (ofSheet rules stock.worksheet).toOption.map fun schema =>
        decide (schema.columns.map Column.index = [2, 3, 5, 6] ∧
          schema.types = [("Item", "group"), ("Item.Name", "string"), ("Item.Count", "float"),
            ("Item.Size", "int")] ∧
          schema.fallbacks = [("Item.Name", "none"), ("Item.Count", "1")] ∧
          schema.metadata = [("about", "what is there")] ∧ schema.headerRows = 10)) =
      some true := by
    decide +kernel
  obtain ⟨rules, hrules, hsome⟩ := Option.bind_eq_some_iff.mp hsome
  obtain ⟨schema, hschema, hfacts⟩ := Option.map_eq_some_iff.mp hsome
  rw [decide_eq_true_eq] at hfacts
  have hrules := eq_ok_of_toOption hrules
  have hschema := eq_ok_of_toOption hschema
  obtain ⟨extent, hextent, hdeclared⟩ :=
    isDeclaredBy_of_ofSheet (Rules.marker_of_ofSettings hrules) hschema
  obtain rfl := Option.some.inj hextent
  exact ⟨rules, schema, hrules, hschema, hdeclared, hfacts⟩

end Schema

end SheetCompiler
