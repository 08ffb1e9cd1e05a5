import Mathlib.Data.List.Nodup
import Mathlib.Data.List.Perm.Basic
import SheetCompiler.Proofs.Footprint

/-!
# What columns register

A usable column registers a type for its path and for every parent of it, and its default for its
path.  The last column to register a path has the last word, so in general the order of the columns
matters.  It does not if the columns are *unambiguous* (`Schema.Unambiguous`): no two of them have
the same path, and two that share a parent give it the same type.

The types and defaults of a schema are then a map: the pairs that its columns register, each name
once (`Entries.mem_ofPairs_iff`).  Another order of the columns gives the same map in another order
(`Entries.ofPairs_perm`), and that answers every question alike (`Entries.get?_perm`).
-/

namespace SheetCompiler

/-! ## Pairs that are a map -/

namespace Entries

variable {α : Type} {pairs others entries : Entries α}

/-- No name has two values. -/
def Functional (pairs : Entries α) : Prop :=
  ∀ entry ∈ pairs, ∀ other ∈ pairs, entry.1 = other.1 → entry.2 = other.2

theorem nodup_names_foldl_put (h : (names entries).Nodup) :
    (names (pairs.foldl (fun entries pair => put pair.1 pair.2 entries) entries)).Nodup := by
  induction pairs generalizing entries with
  | nil => exact h
  | cons pair rest ih => exact ih (nodup_names_put h pair.1 pair.2)

theorem nodup_names_ofPairs (pairs : Entries α) : (names (ofPairs pairs)).Nodup :=
  nodup_names_foldl_put List.nodup_nil

/-- What is there after some writes was written, or was there before. -/
theorem mem_of_mem_foldl_put {entry : String × α} (hnodup : (names entries).Nodup)
    (h : entry ∈ pairs.foldl (fun entries pair => put pair.1 pair.2 entries) entries) :
    entry ∈ pairs ∨ entry ∈ entries := by
  induction pairs generalizing entries with
  | nil => exact Or.inr h
  | cons pair rest ih =>
    rcases ih (nodup_names_put hnodup pair.1 pair.2) h with hrest | hput
    · exact Or.inl (List.mem_cons_of_mem _ hrest)
    · rcases mem_put hnodup hput with rfl | ⟨hold, -⟩
      · exact Or.inl List.mem_cons_self
      · exact Or.inr hold

theorem mem_of_mem_ofPairs {entry : String × α} (h : entry ∈ ofPairs pairs) : entry ∈ pairs :=
  (@mem_of_mem_foldl_put _ _ [] _ List.nodup_nil h).resolve_right List.not_mem_nil

/-- Where no name has two values, the order of writing does not matter. -/
theorem mem_ofPairs_iff (h : pairs.Functional) {entry : String × α} :
    entry ∈ ofPairs pairs ↔ entry ∈ pairs := by
  refine ⟨mem_of_mem_ofPairs, fun hentry => ?_⟩
  have hname : entry.1 ∈ names (ofPairs pairs) :=
    Schema.mem_names_foldl_put.mpr (Or.inl (mem_names_of_mem hentry))
  obtain ⟨value, hvalue⟩ := exists_get? hname
  have hmem := mem_of_get? hvalue
  have hsame : value = entry.2 := h _ (mem_of_mem_ofPairs hmem) entry hentry rfl
  rwa [hsame] at hmem

theorem Functional.perm (h : pairs.Functional) (hperm : pairs.Perm others) : others.Functional :=
  fun entry hentry other hother =>
    h entry (hperm.mem_iff.mpr hentry) other (hperm.mem_iff.mpr hother)

theorem ofPairs_perm (h : pairs.Functional) (hperm : pairs.Perm others) :
    (ofPairs pairs).Perm (ofPairs others) := by
  rw [List.perm_ext_iff_of_nodup (nodup_names_ofPairs pairs).of_map
    (nodup_names_ofPairs others).of_map]
  intro entry
  rw [mem_ofPairs_iff h, mem_ofPairs_iff (h.perm hperm), hperm.mem_iff]

/-- Reading does not depend on the order of entries. -/
theorem get?_perm (hnodup : (names entries).Nodup) (hperm : entries.Perm others) (name : String) :
    get? name entries = get? name others := by
  have hothers : (names others).Nodup := (hperm.map Prod.fst).nodup_iff.mp hnodup
  cases hget : get? name others with
  | none =>
    rw [get?_eq_none_iff] at hget ⊢
    exact fun hname => hget ((hperm.map Prod.fst).mem_iff.mp hname)
  | some value => exact get?_of_mem hnodup (hperm.mem_iff.mpr (mem_of_get? hget))

theorem mem_iff_get?_eq (hnodup : (names entries).Nodup) {entry : String × α} :
    entry ∈ entries ↔ get? entry.1 entries = some entry.2 :=
  ⟨get?_of_mem hnodup, mem_of_get?⟩

/-- Maps that are read alike have the same entries. -/
theorem perm_of_get?_eq (hnodup : (names entries).Nodup) (hothers : (names others).Nodup)
    (h : ∀ name, get? name entries = get? name others) : entries.Perm others := by
  rw [List.perm_ext_iff_of_nodup hnodup.of_map hothers.of_map]
  intro entry
  rw [mem_iff_get?_eq hnodup, mem_iff_get?_eq hothers, h]

end Entries

/-! ## The pairs of a column -/

namespace FieldPath

theorem length_lt_extend (path : String) {segment : String} (h : segment.isEmpty = false) :
    path.length < (extend path segment).length := by
  have hsegment : 0 < segment.length := by
    rw [← String.length_toList, List.length_pos_iff]
    exact toList_ne_nil h
  rw [extend]
  split
  · rename_i hempty
    rw [String.isEmpty_iff.mp hempty]
    exact hsegment
  · rw [String.length_append, String.length_append]
    omega

/-- Paths get longer on the way from the parents to the field. -/
theorem length_lt_of_mem_ancestry {path other : String} {segments : List String}
    (h : ∀ segment ∈ segments, segment.isEmpty = false) (hother : other ∈ ancestry path segments) :
    path.length < other.length := by
  induction segments generalizing path with
  | nil => cases hother
  | cons segment rest ih =>
    obtain ⟨hsegment, hrest⟩ := List.forall_mem_cons.mp h
    have hstep := length_lt_extend path hsegment
    rw [ancestry_cons] at hother
    rcases List.mem_cons.mp hother with rfl | hmem
    · exact hstep
    · exact Nat.lt_trans hstep (ih hrest hmem)

theorem nodup_ancestry (path : String) {segments : List String}
    (h : ∀ segment ∈ segments, segment.isEmpty = false) : (ancestry path segments).Nodup := by
  induction segments generalizing path with
  | nil => exact List.nodup_nil
  | cons segment rest ih =>
    obtain ⟨hsegment, hrest⟩ := List.forall_mem_cons.mp h
    rw [ancestry_cons, List.nodup_cons]
    exact ⟨fun hmem => Nat.lt_irrefl _ (length_lt_of_mem_ancestry hrest hmem), ih _ hrest⟩

end FieldPath

namespace Column

/-- The types of the column's path and of all its parents. -/
def typePairs (column : Column) : Entries String :=
  (FieldPath.ancestry "" column.segments).zip column.types

/-- The default of the column's path. -/
def fallbackPair? (column : Column) : Option (String × String) :=
  column.fallback.map fun text => (column.path, text)

/-- A column gives each of its paths one type. -/
theorem functional_typePairs {column : Column}
    (h : ∀ segment ∈ column.segments, segment.isEmpty = false) :
    column.typePairs.Functional := by
  intro pair hpair other hother hpath
  obtain ⟨index, hindex⟩ := List.mem_iff_getElem?.mp hpair
  obtain ⟨otherIndex, hotherIndex⟩ := List.mem_iff_getElem?.mp hother
  rw [typePairs, List.getElem?_zip_eq_some] at hindex hotherIndex
  -- each path is met once on the way to the field
  have hsame : index = otherIndex := by
    refine (List.getElem?_inj ?_ (FieldPath.nodup_ancestry "" h)).mp ?_
    · exact (List.getElem?_eq_some_iff.mp hindex.1).1
    · rw [hindex.1, hotherIndex.1, hpath]
  exact Option.some.inj (hindex.2.symm.trans (hsame ▸ hotherIndex.2))

/-- A column with a path of its own is the only one with its segments. -/
theorem lastIn_of_nodup {columns : List Column} (h : (columns.map path).Nodup) {column : Column}
    (hcolumn : column ∈ columns) : column.LastIn columns := by
  obtain ⟨front, back, rfl⟩ := List.append_of_mem hcolumn
  refine ⟨front, back, rfl, fun later hlater hsame => ?_⟩
  rw [List.map_append, List.map_cons, List.nodup_append, List.nodup_cons] at h
  exact h.2.1.1 (List.mem_map.mpr ⟨later, hlater, by rw [path, hsame, path]⟩)

end Column

namespace Header

/-- What the header rows say about a column, if all of them can be read. -/
def columnAt (header : Header) (sheet : Worksheet) (index : Nat) : Column :=
  (header.column sheet index).toOption.getD { index := index }

theorem columnAt_of_column {header : Header} {sheet : Worksheet} {index : Nat} {column : Column}
    (h : header.column sheet index = .ok column) : header.columnAt sheet index = column := by
  rw [columnAt, h]
  rfl

theorem index_columnAt (header : Header) (sheet : Worksheet) (index : Nat) :
    (header.columnAt sheet index).index = index := by
  cases h : header.column sheet index with
  | error fault => rw [columnAt, h]; rfl
  | ok column => rw [columnAt_of_column h, index_column h]

/-- A header row puts at most one value into the metadata. -/
theorem nodup_metadata_of_addRow {rules : Rules} {sheet : Worksheet} {columns row : Nat}
    {keyword : String} {header next : Header} (hnodup : (Entries.names header.metadata).Nodup)
    (h : addRow rules sheet columns row keyword header = .ok next) :
    (Entries.names next.metadata).Nodup := by
  rw [addRow] at h
  by_cases hempty : keyword.isEmpty = true
  · simp only [hempty, if_true] at h
    exact Except.ok.inj h ▸ hnodup
  · simp only [hempty, Bool.false_eq_true, if_false] at h
    split at h
    · exact Except.ok.inj h ▸ hnodup
    · split at h
      · exact Except.ok.inj h ▸ hnodup
      · obtain ⟨found, -, h⟩ := bind_eq_ok.mp h
        cases found with
        | none => exact Except.ok.inj h ▸ hnodup
        | some value => exact Except.ok.inj h ▸ Entries.nodup_names_put hnodup keyword value

theorem nodup_metadata_of_scan {rules : Rules} {sheet : Worksheet} {columns count row : Nat}
    {header last : Header} (hnodup : (Entries.names header.metadata).Nodup)
    (h : scan rules sheet columns count row header = .ok last) :
    (Entries.names last.metadata).Nodup := by
  induction count generalizing row header with
  | zero => exact Except.ok.inj h ▸ hnodup
  | succ count ih =>
    rw [scan_succ] at h
    obtain ⟨cell, -, h⟩ := bind_eq_ok.mp h
    split at h
    · exact Except.ok.inj h ▸ hnodup
    · obtain ⟨next, hadd, h⟩ := bind_eq_ok.mp h
      exact ih (nodup_metadata_of_addRow hnodup hadd) h

end Header

/-- The places of columns, to the right of the marker column. -/
def Rules.places (rules : Rules) (extent : Extent) : List Nat :=
  List.range' (Worksheet.markerColumn + 1) ((rules.clip extent).columns - Worksheet.markerColumn)

theorem Rules.mem_places {rules : Rules} {extent : Extent} {column : Nat} :
    column ∈ rules.places extent ↔
      Worksheet.markerColumn < column ∧ column ≤ (rules.clip extent).columns := by
  rw [places, List.mem_range'_1, Worksheet.markerColumn]
  omega

/-! ## Schemas of columns -/

namespace Schema

variable {schema : Schema} {columns others : List Column}

/-- The schema that some columns make, one after another. -/
def ofColumns (header : Header) (rows : Nat) (columns : List Column) : Schema :=
  { start header rows with
    columns := columns
    types := Entries.ofPairs (columns.flatMap Column.typePairs)
    fallbacks := Entries.ofPairs (columns.filterMap Column.fallbackPair?) }

theorem getLast?_ancestry_segments {column : Column} (hne : column.segments ≠ []) :
    (FieldPath.ancestry "" column.segments).getLast? = some column.path := by
  obtain ⟨segment, rest, hsegments⟩ := List.exists_cons_of_ne_nil hne
  rw [Column.path, FieldPath.ofSegments, hsegments, FieldPath.getLast?_ancestry]

/-- Registering one more column. -/
theorem register_ofColumns (header : Header) (rows : Nat) (columns : List Column) {column : Column}
    (hne : column.segments ≠ []) :
    (ofColumns header rows columns).register column =
      ofColumns header rows (columns ++ [column]) := by
  have htypes : Entries.ofPairs ((columns ++ [column]).flatMap Column.typePairs) =
      column.typePairs.foldl (fun types entry => Entries.put entry.1 entry.2 types)
        (Entries.ofPairs (columns.flatMap Column.typePairs)) := by
    rw [List.flatMap_append, List.flatMap_singleton, Entries.ofPairs, List.foldl_append]
    rfl
  have hfallbacks : Entries.ofPairs ((columns ++ [column]).filterMap Column.fallbackPair?) =
      column.fallbackPair?.toList.foldl (fun texts entry => Entries.put entry.1 entry.2 texts)
        (Entries.ofPairs (columns.filterMap Column.fallbackPair?)) := by
    rw [List.filterMap_append, Entries.ofPairs, List.foldl_append]
    cases hpair : column.fallbackPair? with
    | none => rw [List.filterMap_cons_none hpair]; rfl
    | some pair => rw [List.filterMap_cons_some hpair]; rfl
  rw [ofColumns, ofColumns, htypes, hfallbacks, register, getLast?_ancestry_segments hne,
    Column.fallbackPair?]
  cases column.fallback <;> rfl

theorem foldl_register (header : Header) (rows : Nat)
    (hne : ∀ column ∈ columns, column.segments ≠ []) :
    columns.foldl register (start header rows) = ofColumns header rows columns := by
  induction columns using List.reverseRecOn with
  | nil => rfl
  | append_singleton columns column ih =>
    obtain ⟨hfront, hlast⟩ := List.forall_mem_append.mp hne
    rw [List.foldl_append, ih hfront, List.foldl_cons, List.foldl_nil,
      register_ofColumns header rows columns (hlast column List.mem_cons_self)]

/-- What the columns of a header are read to, when all of them are read. -/
theorem foldlM_addColumn_eq_ok {rules : Rules} {sheet : Worksheet} {header : Header}
    {indices : List Nat} {before after : Schema}
    (h : indices.foldlM (addColumn rules sheet header) before = .ok after) :
    after = ((indices.map (header.columnAt sheet)).filter rules.usable).foldl register before := by
  induction indices generalizing before with
  | nil => exact (Except.ok.inj h).symm
  | cons index indices ih =>
    rw [List.foldlM_cons] at h
    obtain ⟨next, hstep, hrest⟩ := bind_eq_ok.mp h
    obtain ⟨column, hcolumn, rfl⟩ := addColumn_eq_ok hstep
    rw [List.map_cons, Header.columnAt_of_column hcolumn, List.filter_cons, ih hrest]
    split <;> rfl

/-- The schema of a worksheet is that of its usable columns. -/
theorem ofSheet_eq_ofColumns {rules : Rules} {sheet : Worksheet}
    (h : ofSheet rules sheet = .ok schema) :
    ∃ extent header, sheet.extent = some extent ∧
      Header.scan rules sheet (rules.clip extent).columns (rules.clip extent).rows 1 {} =
        .ok header ∧
      schema = ofColumns header (rules.clip extent).rows
        (((rules.places extent).map (header.columnAt sheet)).filter rules.usable) := by
  obtain ⟨extent, header, hextent, hscan, hbuild⟩ := ofSheet_eq_ok h
  obtain ⟨-, -, -, hcolumns⟩ := build_eq_ok hbuild
  refine ⟨extent, header, hextent, hscan, ?_⟩
  rw [foldlM_addColumn_eq_ok hcolumns, foldl_register]
  · rfl
  · exact fun column hcolumn => (Rules.segments_of_usable (List.mem_filter.mp hcolumn).2).1

/-- The cells of usable columns below the header are looked at. -/
theorem reaches_of_ofSheet {rules : Rules} {sheet : Worksheet}
    (h : ofSheet rules sheet = .ok schema) {row : Nat} (hrow : row ∈ CompiledSheet.dataRows schema)
    {column : Column} (hcolumn : column ∈ schema.columns) :
    ∃ extent, sheet.extent = some extent ∧ rules.Reaches extent row column.index := by
  obtain ⟨extent, header, hextent, -, rfl⟩ := ofSheet_eq_ofColumns h
  obtain ⟨index, hindex, rfl⟩ := List.mem_map.mp (List.mem_filter.mp hcolumn).1
  obtain ⟨hlow, hhigh⟩ := Rules.mem_places.mp hindex
  rw [CompiledSheet.dataRows, List.mem_range'_1, dataStart] at hrow
  have hrows : (ofColumns header (rules.clip extent).rows
      (((rules.places extent).map (header.columnAt sheet)).filter rules.usable)).rows =
        (rules.clip extent).rows := rfl
  rw [Header.index_columnAt]
  exact ⟨extent, hextent, by omega, by show row ≤ (rules.clip extent).rows; omega, by omega,
    Nat.le_trans hhigh (Nat.le_max_right _ _)⟩

/-- The types and defaults of a worksheet are what its usable columns register. -/
theorem maps_of_ofSheet {rules : Rules} {sheet : Worksheet} (h : ofSheet rules sheet = .ok schema) :
    schema.types = Entries.ofPairs (schema.columns.flatMap Column.typePairs) ∧
      schema.fallbacks = Entries.ofPairs (schema.columns.filterMap Column.fallbackPair?) := by
  obtain ⟨extent, header, -, -, rfl⟩ := ofSheet_eq_ofColumns h
  exact ⟨rfl, rfl⟩

/-- Types, defaults and metadata are maps. -/
theorem nodup_names_of_ofSheet {rules : Rules} {sheet : Worksheet}
    (h : ofSheet rules sheet = .ok schema) :
    (Entries.names schema.types).Nodup ∧ (Entries.names schema.fallbacks).Nodup ∧
      (Entries.names schema.metadata).Nodup := by
  obtain ⟨extent, header, -, hscan, rfl⟩ := ofSheet_eq_ofColumns h
  have hnone : (Entries.names ({} : Header).metadata).Nodup := List.nodup_nil
  exact ⟨Entries.nodup_names_ofPairs _, Entries.nodup_names_ofPairs _,
    Header.nodup_metadata_of_scan hnone hscan⟩

/-! ## Unambiguous columns -/

/-- No two columns have the same path, and any two of them that share a path on the way to their
fields give it the same type. -/
structure Unambiguous (schema : Schema) : Prop where
  paths : (schema.columns.map Column.path).Nodup
  types : ∀ column ∈ schema.columns, ∀ other ∈ schema.columns, column ≠ other →
    ∀ pair ∈ column.typePairs, ∀ otherPair ∈ other.typePairs, pair.1 = otherPair.1 →
      pair.2 = otherPair.2

instance (schema : Schema) : Decidable schema.Unambiguous :=
  decidable_of_iff ((schema.columns.map Column.path).Nodup ∧
      ∀ column ∈ schema.columns, ∀ other ∈ schema.columns, column ≠ other →
        ∀ pair ∈ column.typePairs, ∀ otherPair ∈ other.typePairs, pair.1 = otherPair.1 →
          pair.2 = otherPair.2)
    ⟨fun h => ⟨h.1, h.2⟩, fun h => ⟨h.paths, h.types⟩⟩

/-- Unambiguous columns register a type map. -/
theorem Unambiguous.functional_types (h : schema.Unambiguous) (hlawful : schema.Lawful) :
    Entries.Functional (schema.columns.flatMap Column.typePairs) := by
  intro pair hpair otherPair hotherPair hpath
  obtain ⟨column, hcolumn, hpair⟩ := List.mem_flatMap.mp hpair
  obtain ⟨other, hother, hotherPair⟩ := List.mem_flatMap.mp hotherPair
  by_cases hsame : column = other
  · subst hsame
    exact Column.functional_typePairs (hlawful.segments column hcolumn).2 pair hpair otherPair
      hotherPair hpath
  · exact h.types column hcolumn other hother hsame pair hpair otherPair hotherPair hpath

/-- Unambiguous columns register a map of defaults. -/
theorem Unambiguous.functional_fallbacks (h : schema.Unambiguous) :
    Entries.Functional (schema.columns.filterMap Column.fallbackPair?) := by
  intro pair hpair otherPair hotherPair hpath
  obtain ⟨column, hcolumn, hpair⟩ := List.mem_filterMap.mp hpair
  obtain ⟨other, hother, hotherPair⟩ := List.mem_filterMap.mp hotherPair
  obtain ⟨text, htext, rfl⟩ := Option.map_eq_some_iff.mp hpair
  obtain ⟨otherText, hotherText, rfl⟩ := Option.map_eq_some_iff.mp hotherPair
  obtain rfl := List.inj_on_of_nodup_map h.paths hcolumn hother hpath
  exact Option.some.inj (htext.symm.trans hotherText)

end Schema

end SheetCompiler
