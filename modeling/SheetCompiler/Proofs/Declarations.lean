import SheetCompiler.Proofs.RawRecord
import SheetCompiler.Record.Layout

/-!
# What a header declares

A schema that was read from a worksheet is *lawful*: every name in it has text, every field path of
a column and every parent of it has a type, and every default is a text that stands at the path of a
column.  The proof follows the reading of the header: a cell counts only if there is text in it, and
each usable column registers its own paths.

`Layout.Declares` says the same of one field and the outline below it.  It is what the stages of a
row ask of a header, and it passes from a field to the fields below (`Layout.Declares.below`).
-/

namespace SheetCompiler

namespace FieldPath

theorem getLast?_ancestry (path segment : String) (rest : List String) :
    (ancestry path (segment :: rest)).getLast? =
      some ((segment :: rest).foldl extend path) := by
  induction rest generalizing path segment with
  | nil => rfl
  | cons next rest ih =>
    rw [ancestry_cons, ancestry_cons, List.getLast?_cons_cons, ← ancestry_cons, ih]
    rfl

end FieldPath

/-! ## The cells of a header -/

theorem Worksheet.cellText_of_read {sheet : Worksheet} {row column : Nat} {cell : Option String}
    (h : sheet.read row column = .ok cell) : sheet.cellText row column = .ok cell := by
  rw [read] at h
  split at h
  · rename_i hcell
    rw [hcell, Except.ok.inj h]
  · cases h

theorem Worksheet.isEmpty_of_readFilled {sheet : Worksheet} {row column : Nat} {text : String}
    (h : sheet.readFilled row column = .ok (some text)) : text.isEmpty = false := by
  rw [readFilled] at h
  obtain ⟨cell, -, hcell⟩ := bind_eq_ok.mp h
  have hfilled : cell.bind Text.filled? = some text := Except.ok.inj hcell
  obtain ⟨whole, -, htrim⟩ := Option.bind_eq_some_iff.mp hfilled
  simp only [Text.filled?] at htrim
  split at htrim
  · cases htrim
  · rename_i hne
    rw [← Option.some.inj htrim]
    exact Bool.eq_false_iff.mpr hne

namespace Column

/-- Every value that the header gives for the column has text. -/
structure Filled (column : Column) : Prop where
  values : ∀ keyword, ∀ value ∈ column.get keyword, value.isEmpty = false
  fallback : ∀ text, column.fallback = some text → text.isEmpty = false

theorem Filled.push {column : Column} (h : column.Filled) (keyword : String) {value : String}
    (hvalue : value.isEmpty = false) : (column.push keyword value).Filled := by
  constructor
  · intro other text htext
    by_cases hkey : other = keyword
    · rw [hkey, get_push_self, List.mem_append, List.mem_singleton] at htext
      rcases htext with htext | rfl
      · exact h.values keyword text htext
      · exact hvalue
    · rw [get_push_of_ne hkey] at htext
      exact h.values other text htext
  · intro text htext
    by_cases hkey : keyword = Keyword.fallback
    · simp only [Column.push, if_pos hkey, Option.some.injEq] at htext
      exact htext ▸ hvalue
    · simp only [Column.push, if_neg hkey] at htext
      exact h.fallback text htext

end Column

/-- The header rows push filled cells onto a column that is empty at first. -/
theorem Header.column_preserves {header : Header} {sheet : Worksheet} {index : Nat}
    (P : Column → Prop) (hfirst : P { index := index })
    (hpush : ∀ column keyword text, P column → text.isEmpty = false → P (column.push keyword text))
    {column : Column} (h : header.column sheet index = .ok column) : P column := by
  refine foldlM_preserves P ?_ hfirst h
  intro before entry _ after hbefore hstep
  obtain ⟨cell, hread, hstep⟩ := bind_eq_ok.mp hstep
  cases cell with
  | none => exact Except.ok.inj hstep ▸ hbefore
  | some text =>
    have htext := Worksheet.isEmpty_of_readFilled hread
    rw [← Except.ok.inj hstep]
    exact hpush before entry.2 text hbefore htext

/-- What the header rows say about a column has text. -/
theorem Header.filled_column {header : Header} {sheet : Worksheet} {index : Nat} {column : Column}
    (h : header.column sheet index = .ok column) : column.Filled :=
  header.column_preserves Column.Filled ⟨by simp [Column.get], by simp⟩
    (fun _ keyword _ hbefore htext => hbefore.push keyword htext) h

/-- A column of the header knows its number. -/
theorem Header.index_column {header : Header} {sheet : Worksheet} {index : Nat} {column : Column}
    (h : header.column sheet index = .ok column) : column.index = index :=
  header.column_preserves (fun column => column.index = index) rfl
    (fun _ _ _ hbefore _ => hbefore) h

namespace Rules

theorem segments_of_usable {rules : Rules} {column : Column} (h : rules.usable column = true) :
    column.segments ≠ [] ∧ column.segments.length = column.types.length := by
  simp only [usable, Bool.and_eq_true, Bool.not_eq_true', beq_iff_eq] at h
  exact ⟨by simpa using h.1.1.1, h.1.2⟩

end Rules

/-! ## The schema of a header -/

namespace Schema

/-- Every declaration of the schema stands for what some column says. -/
structure Lawful (schema : Schema) : Prop where
  index : ∀ column ∈ schema.columns, Worksheet.markerColumn < column.index
  segments : ∀ column ∈ schema.columns, column.segments ≠ [] ∧
    ∀ segment ∈ column.segments, segment.isEmpty = false
  types : ∀ column ∈ schema.columns, ∀ path ∈ FieldPath.ancestry "" column.segments,
    path ∈ Entries.names schema.types
  fallbacks : ∀ path text, Entries.get? path schema.fallbacks = some text →
    text.isEmpty = false ∧ ∃ column ∈ schema.columns, column.path = path

theorem mem_names_foldl_put {α : Type} {name : String} {pairs : List (String × α)}
    {entries : Entries α} :
    name ∈ Entries.names (pairs.foldl (fun all pair => Entries.put pair.1 pair.2 all) entries) ↔
      name ∈ pairs.map Prod.fst ∨ name ∈ Entries.names entries := by
  induction pairs generalizing entries with
  | nil => simp
  | cons pair rest ih =>
    rw [List.foldl_cons, ih, Entries.mem_names_put, List.map_cons, List.mem_cons]
    tauto

/-- A usable column keeps a schema lawful. -/
theorem Lawful.register {schema : Schema} (h : schema.Lawful) {column : Column}
    (hindex : Worksheet.markerColumn < column.index) (hfilled : column.Filled)
    (hne : column.segments ≠ []) (hlength : column.segments.length = column.types.length) :
    (schema.register column).Lawful := by
  have hpaths : ((FieldPath.ancestry "" column.segments).zip column.types).map Prod.fst =
      FieldPath.ancestry "" column.segments := by
    rw [List.map_fst_zip]
    rw [FieldPath.length_ancestry]
    exact Nat.le_of_eq hlength
  have hsegments : column.segments ≠ [] ∧ ∀ segment ∈ column.segments, segment.isEmpty = false :=
    ⟨hne, hfilled.values Keyword.field⟩
  refine ⟨?_, ?_, ?_, ?_⟩
  · exact List.forall_mem_append.mpr ⟨h.index, List.forall_mem_singleton.mpr hindex⟩
  · exact List.forall_mem_append.mpr ⟨h.segments, List.forall_mem_singleton.mpr hsegments⟩
  · intro other hother path hpath
    show path ∈ Entries.names (List.foldl _ schema.types _)
    rw [mem_names_foldl_put, hpaths]
    rcases List.mem_append.mp hother with hold | hnew
    · exact Or.inr (h.types other hold path hpath)
    · rw [List.mem_singleton.mp hnew] at hpath
      exact Or.inl hpath
  · obtain ⟨segment, rest, hsegments⟩ := List.exists_cons_of_ne_nil hne
    have hlast : (FieldPath.ancestry "" column.segments).getLast? = some column.path := by
      rw [hsegments, FieldPath.getLast?_ancestry, Column.path, FieldPath.ofSegments, hsegments]
    intro path text hget
    have hold : ∀ {path text}, Entries.get? path schema.fallbacks = some text →
        text.isEmpty = false ∧ ∃ other ∈ schema.columns ++ [column], other.path = path := by
      intro path text hget
      obtain ⟨htext, other, hother, hpath⟩ := h.fallbacks path text hget
      exact ⟨htext, other, List.mem_append_left _ hother, hpath⟩
    cases hfallback : column.fallback with
    | none =>
      simp only [Schema.register, hlast, hfallback] at hget
      exact hold hget
    | some default =>
      simp only [Schema.register, hlast, hfallback] at hget
      by_cases hpath : path = column.path
      · rw [hpath, Entries.get?_put_self, Option.some.injEq] at hget
        exact ⟨hget ▸ hfilled.fallback default hfallback, column,
          List.mem_append_right _ (List.mem_singleton.mpr rfl), hpath.symm⟩
      · rw [Entries.get?_put_of_ne hpath] at hget
        exact hold hget

/-- What reading one column of a header does, when it succeeds. -/
theorem addColumn_eq_ok {rules : Rules} {sheet : Worksheet} {header : Header}
    {before after : Schema} {index : Nat}
    (h : addColumn rules sheet header before index = .ok after) :
    ∃ column, header.column sheet index = .ok column ∧
      after = if rules.usable column then before.register column else before := by
  rw [addColumn] at h
  obtain ⟨column, hcolumn, h⟩ := bind_eq_ok.mp h
  exact ⟨column, hcolumn, (Except.ok.inj h).symm⟩

/-- The schema before any column is read. -/
def start (header : Header) (rows : Nat) : Schema :=
  { metadata := header.metadata, headerRows := header.rows, rows := rows }

/-- What the columns of a header are read to, when there is a schema. -/
theorem build_eq_ok {rules : Rules} {sheet : Worksheet} {header : Header} {rows columns : Nat}
    {schema : Schema} (h : build rules sheet header rows columns = .ok schema) :
    header.rows ≠ 0 ∧ header.has Keyword.field ∧ header.has Keyword.type ∧
      (List.range' (Worksheet.markerColumn + 1) (columns - Worksheet.markerColumn)).foldlM
        (addColumn rules sheet header) (start header rows) = .ok schema := by
  rw [build] at h
  by_cases hrows : header.rows = 0
  · rw [if_pos hrows] at h
    cases h
  · rw [if_neg hrows] at h
    by_cases hkeys : header.has Keyword.field && header.has Keyword.type
    · simp only [hkeys, Bool.not_true, Bool.false_eq_true, if_false] at h
      rw [Bool.and_eq_true] at hkeys
      exact ⟨hrows, hkeys.1, hkeys.2, h⟩
    · rw [Bool.not_eq_true] at hkeys
      simp only [hkeys, Bool.not_false, if_true] at h
      cases h

/-- What a worksheet is read to, when it has a schema. -/
theorem ofSheet_eq_ok {rules : Rules} {sheet : Worksheet} {schema : Schema}
    (h : ofSheet rules sheet = .ok schema) :
    ∃ extent header, sheet.extent = some extent ∧
      Header.scan rules sheet (min extent.columns rules.settings.maxColumns)
        (min extent.rows rules.settings.maxRows) 1 {} = .ok header ∧
      build rules sheet header (min extent.rows rules.settings.maxRows)
        (min extent.columns rules.settings.maxColumns) = .ok schema := by
  rw [ofSheet] at h
  cases hextent : sheet.extent with
  | none =>
    rw [hextent] at h
    cases h
  | some extent =>
    rw [hextent] at h
    obtain ⟨header, hscan, hbuild⟩ := bind_eq_ok.mp h
    exact ⟨extent, header, rfl, hscan, hbuild⟩

/-- What a worksheet declares is lawful. -/
theorem lawful_ofSheet {rules : Rules} {sheet : Worksheet} {schema : Schema}
    (h : ofSheet rules sheet = .ok schema) : schema.Lawful := by
  obtain ⟨extent, header, -, -, hbuild⟩ := ofSheet_eq_ok h
  obtain ⟨-, -, -, hcolumns⟩ := build_eq_ok hbuild
  refine foldlM_preserves Lawful ?_ ?_ hcolumns
  · intro before index hmem after hbefore hstep
    obtain ⟨column, hcolumn, rfl⟩ := addColumn_eq_ok hstep
    by_cases husable : rules.usable column = true
    · obtain ⟨hne, hlength⟩ := Rules.segments_of_usable husable
      have hindex : Worksheet.markerColumn < column.index := by
        rw [Header.index_column hcolumn]
        exact (List.mem_range'_1.mp hmem).1
      rw [if_pos husable]
      exact hbefore.register hindex (Header.filled_column hcolumn) hne hlength
    · rw [if_neg husable]
      exact hbefore
  · exact ⟨by simp [start], by simp [start], by simp [start], by simp [start]⟩

end Schema

/-! ## What a layout declares below a field -/

namespace Layout

/-- Every field of the outline has a type, and every default has text. -/
structure Declares (layout : Layout) (path : String) (outline : Outline) : Prop where
  typed : ∀ segments ∈ outline, ∀ inner ∈ FieldPath.ancestry path segments,
    (layout.type? inner).isSome
  filled : ∀ inner text, layout.fallback? inner = some text → text.isEmpty = false

variable {layout : Layout} {path : String} {outline : Outline}

theorem Declares.below (h : layout.Declares path outline) (name : String) :
    layout.Declares (FieldPath.extend path name) (outline.below name) := by
  refine ⟨fun segments hsegments inner hinner => ?_, h.filled⟩
  exact h.typed (name :: segments) (Outline.mem_below.mp hsegments) inner
    (List.mem_cons_of_mem _ hinner)

theorem Declares.type (h : layout.Declares path outline) {name : String}
    (hname : name ∈ outline.names) :
    (layout.type? (FieldPath.extend path name)).isSome := by
  obtain ⟨rest, hrest⟩ := Outline.mem_names.mp hname
  exact h.typed (name :: rest) hrest _ List.mem_cons_self

/-- A lawful schema declares the outline of its columns. -/
theorem declares_of_lawful {schema : Schema} (h : schema.Lawful) (settings : Settings) :
    (Layout.mk schema settings).Declares "" (Outline.ofColumns schema.columns) := by
  refine ⟨fun segments hsegments inner hinner => ?_, fun inner text htext => ?_⟩
  · obtain ⟨column, hcolumn, rfl⟩ := List.mem_map.mp hsegments
    have hname := h.types column hcolumn inner hinner
    exact Option.isSome_iff_exists.mpr (Entries.exists_get? hname)
  · exact (h.fallbacks inner text htext).1

end Layout

end SheetCompiler
