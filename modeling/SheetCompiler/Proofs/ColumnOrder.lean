import Mathlib.Logic.Equiv.Basic
import SheetCompiler.Proofs.MovedColumns
import SheetCompiler.Proofs.Rearrangement

/-!
# The order of columns

The order of the columns of a worksheet matters to the order of fields only
(`CompiledSheet.rearranged_ofWorksheet`), as long as its usable columns are unambiguous.

The proof compares a worksheet with one that has its columns in other places.  A reason not to
compile the one is a reason of the same kind for the other (`MovesColumns.exists_cause`).  If both
compile, they declare the same types and defaults, each row of the one is a rearranged row of the
other, and the row loop respects that.
-/

namespace SheetCompiler

/-! ## Kinds of faults -/

namespace SheetFault

/-- What went wrong, but not where. -/
inductive Kind where
  | noExtent
  | noSchema (gap : SchemaGap)
  | unreadableCell
  | untypedField
  | emptyFieldPath
  | pathConflict
  deriving DecidableEq

/-- The kind of a fault. -/
def kind : SheetFault → Kind
  | .noExtent .. => .noExtent
  | .noSchema _ gap => .noSchema gap
  | .unreadableCell .. => .unreadableCell
  | .untypedField .. => .untypedField
  | .emptyFieldPath .. => .emptyFieldPath
  | .pathConflict .. => .pathConflict

end SheetFault

/-! ## Why a worksheet is not compiled -/

namespace Rules.MovesColumns

variable {rules : Rules} {move : Equiv.Perm Nat} {sheet other : Worksheet}
  {schema otherSchema : Schema}

/-- If one of the worksheets has a schema, so has the other one. -/
theorem exists_ofSheet (h : rules.MovesColumns move sheet other) (hread : rules.CanRead sheet)
    (hschema : Schema.ofSheet rules sheet = .ok schema) :
    ∃ otherSchema, Schema.ofSheet rules other = .ok otherSchema := by
  obtain ⟨extent, header, hextent, -⟩ := Schema.ofSheet_eq_ok hschema
  obtain ⟨otherExtent, hother, hclip⟩ := h.exists_extent hextent
  refine CompiledSheet.exists_ofSheet (h.canRead hread) hother ?_
  rw [← h.headerKeywords_eq hread hextent hclip]
  exact (Schema.header_of_ofSheet hextent hschema).2.2

/-- A reason not to compile one worksheet is one of that kind for the other one. -/
theorem exists_cause (h : rules.MovesColumns move sheet other) (hread : rules.CanRead sheet)
    {fault : SheetFault} (hcause : SheetFault.Cause rules sheet fault) :
    ∃ otherFault, SheetFault.Cause rules other otherFault ∧ fault.kind = otherFault.kind := by
  cases hcause with
  | noExtent hnone =>
    have hclip := h.extent
    rw [hnone, Option.map_none, eq_comm, Option.map_eq_none_iff] at hclip
    exact ⟨_, .noExtent hclip, rfl⟩
  | noSchema hextent hlacks =>
    obtain ⟨otherExtent, hother, hclip⟩ := h.exists_extent hextent
    rw [h.headerKeywords_eq hread hextent hclip] at hlacks
    exact ⟨_, .noSchema hother hlacks, rfl⟩
  | @clash extent schema column hextent hschema hdata hclash =>
    obtain ⟨otherExtent, hother, hclip⟩ := h.exists_extent hextent
    obtain ⟨otherSchema, hotherSchema⟩ := h.exists_ofSheet hread hschema
    have hperm := h.columns_perm hread hschema hotherSchema
    -- whether paths clash is a matter of the columns, not of their order
    have hmoved : ∀ {column : Column}, column ∈ schema.columns →
        column.moveBy move ∈ otherSchema.columns := fun hcolumn =>
      hperm.mem_iff.mpr (List.mem_map_of_mem hcolumn)
    obtain ⟨first, hfirst, second, hsecond, hne, hprefix⟩ :=
      (Column.exists_firstClash_iff (Schema.sorted_of_ofSheet hschema)).mp ⟨column, hclash⟩
    obtain ⟨otherColumn, hotherClash⟩ :=
      (Column.exists_firstClash_iff (Schema.sorted_of_ofSheet hotherSchema)).mpr
        ⟨_, hmoved hfirst, _, hmoved hsecond, hne, hprefix⟩
    have hotherData : (rules.headerKeywords other otherExtent).length <
        min otherExtent.rows rules.settings.maxRows := by
      rw [← h.headerKeywords_eq hread hextent hclip,
        show min otherExtent.rows rules.settings.maxRows = min extent.rows rules.settings.maxRows
          from (congrArg Extent.rows hclip).symm]
      exact hdata
    exact ⟨_, .clash hother hotherSchema hotherData hotherClash, rfl⟩

/-! ## Rows -/

/-- The rows below the header are the same ones. -/
theorem dataRows_eq (h : rules.MovesColumns move sheet other) (hread : rules.CanRead sheet)
    (hschema : Schema.ofSheet rules sheet = .ok schema)
    (hother : Schema.ofSheet rules other = .ok otherSchema) :
    CompiledSheet.dataRows otherSchema = CompiledSheet.dataRows schema := by
  obtain ⟨extent, header, hextent, -⟩ := Schema.ofSheet_eq_ok hschema
  obtain ⟨otherExtent, hotherExtent, hclip⟩ := h.exists_extent hextent
  obtain ⟨hheader, hrows, -⟩ := Schema.header_of_ofSheet hextent hschema
  obtain ⟨hotherHeader, hotherRows, -⟩ := Schema.header_of_ofSheet hotherExtent hother
  rw [CompiledSheet.dataRows, CompiledSheet.dataRows, Schema.dataStart, Schema.dataStart, hheader,
    hrows, hotherHeader, hotherRows, h.headerKeywords_eq hread hextent hclip,
    show min otherExtent.rows rules.settings.maxRows = min extent.rows rules.settings.maxRows
      from (congrArg Extent.rows hclip).symm]

/-- Both worksheets have the same paths. -/
theorem mem_ofColumns_iff (h : rules.MovesColumns move sheet other)
    (hread : rules.CanRead sheet) (hschema : Schema.ofSheet rules sheet = .ok schema)
    (hother : Schema.ofSheet rules other = .ok otherSchema) (names : List String) :
    names ∈ Outline.ofColumns schema.columns ↔ names ∈ Outline.ofColumns otherSchema.columns := by
  have hsegments := (h.columns_perm hread hschema hother).map Column.segments
  rw [List.map_map] at hsegments
  exact hsegments.mem_iff.symm

/-- A row has the same fields in both worksheets, in another order. -/
theorem rearranged_ofRow (h : rules.MovesColumns move sheet other)
    (hread : rules.CanRead sheet) (hschema : Schema.ofSheet rules sheet = .ok schema)
    (hother : Schema.ofSheet rules other = .ok otherSchema) (hunambiguous : schema.Unambiguous)
    {row : Nat} (hrow : row ∈ CompiledSheet.dataRows schema) {raw otherRaw : Record}
    (hraw : Record.ofRow sheet schema.columns row = .ok raw)
    (hotherRaw : Record.ofRow other otherSchema.columns row = .ok otherRaw) :
    raw.Rearranged otherRaw := by
  have hperm := h.columns_perm hread hschema hother
  have hpaths : (otherSchema.columns.map Column.path).Nodup := by
    rw [(hperm.map Column.path).nodup_iff, List.map_map]
    exact hunambiguous.paths
  refine Record.rearranged_ofRow (h.mem_ofColumns_iff hread hschema hother) ?_ hraw hotherRaw
  intro column hlast
  have hmoved : column.moveBy move ∈ otherSchema.columns :=
    hperm.mem_iff.mpr (List.mem_map_of_mem hlast.mem)
  obtain ⟨extent, hextent, hreaches⟩ := Schema.reaches_of_ofSheet hschema hrow hlast.mem
  exact ⟨column.moveBy move, Column.lastIn_of_nodup hpaths hmoved, rfl,
    h.cells extent hextent row column.index hreaches⟩

/-! ## Types and defaults -/

theorem types_perm (h : rules.MovesColumns move sheet other) (hread : rules.CanRead sheet)
    (hschema : Schema.ofSheet rules sheet = .ok schema)
    (hother : Schema.ofSheet rules other = .ok otherSchema) (hunambiguous : schema.Unambiguous) :
    schema.types.Perm otherSchema.types := by
  have hpairs := (h.columns_perm hread hschema hother).flatMap_right Column.typePairs
  rw [List.flatMap_map] at hpairs
  rw [(Schema.maps_of_ofSheet hschema).1, (Schema.maps_of_ofSheet hother).1]
  exact Entries.ofPairs_perm (hunambiguous.functional_types (Schema.lawful_ofSheet hschema))
    hpairs.symm

theorem fallbacks_perm (h : rules.MovesColumns move sheet other) (hread : rules.CanRead sheet)
    (hschema : Schema.ofSheet rules sheet = .ok schema)
    (hother : Schema.ofSheet rules other = .ok otherSchema) (hunambiguous : schema.Unambiguous) :
    schema.fallbacks.Perm otherSchema.fallbacks := by
  have hpairs := (h.columns_perm hread hschema hother).filterMap Column.fallbackPair?
  rw [List.filterMap_map] at hpairs
  rw [(Schema.maps_of_ofSheet hschema).2, (Schema.maps_of_ofSheet hother).2]
  exact Entries.ofPairs_perm hunambiguous.functional_fallbacks hpairs.symm

/-- Both headers answer the questions of the row loop alike. -/
theorem agrees (h : rules.MovesColumns move sheet other) (hread : rules.CanRead sheet)
    (hschema : Schema.ofSheet rules sheet = .ok schema)
    (hother : Schema.ofSheet rules other = .ok otherSchema) (hunambiguous : schema.Unambiguous) :
    (Layout.mk otherSchema rules.settings).Agrees ⟨schema, rules.settings⟩ := by
  obtain ⟨htypes, hfallbacks, -⟩ := Schema.nodup_names_of_ofSheet hschema
  have htype := Entries.get?_perm htypes (h.types_perm hread hschema hother hunambiguous)
  have hfallback :=
    Entries.get?_perm hfallbacks (h.fallbacks_perm hread hschema hother hunambiguous)
  exact Layout.agrees_of_get? rules.settings (fun path => (htype path).symm)
    fun path => (hfallback path).symm

end Rules.MovesColumns

namespace CompiledSheet

variable {rules : Rules} {move : Equiv.Perm Nat} {sheet other : Worksheet}

/-- Where there is a reason not to compile a worksheet, it is not compiled for that reason. -/
theorem eq_error_of_cause (hread : rules.CanRead sheet) {fault : SheetFault}
    (h : SheetFault.Cause rules sheet fault) : ofWorksheet rules sheet = .error fault := by
  cases hresult : ofWorksheet rules sheet with
  | ok compiled => exact absurd hresult (not_ok_of_cause h compiled)
  | error found =>
    have hfound := (cause_of_ofWorksheet hresult).resolve_right
      (hread.not_failsToRead found)
    rw [h.unique hfound]

/-- A worksheet that compiles has a schema, and its types. -/
theorem exists_schema {compiled : CompiledSheet} (h : ofWorksheet rules sheet = .ok compiled) :
    ∃ schema, Schema.ofSheet rules sheet = .ok schema ∧ compiled.types = schema.types := by
  rw [ofWorksheet] at h
  obtain ⟨schema, hschema, h⟩ := bind_eq_ok.mp h
  obtain ⟨records, -, h⟩ := bind_eq_ok.mp h
  exact ⟨schema, hschema, congrArg CompiledSheet.types (Except.ok.inj h).symm⟩

/-- The records of a worksheet with its columns in other places. -/
theorem forall₂_records (h : rules.MovesColumns move sheet other) (hread : rules.CanRead sheet)
    {schema otherSchema : Schema} (hschema : Schema.ofSheet rules sheet = .ok schema)
    (hother : Schema.ofSheet rules other = .ok otherSchema) (hunambiguous : schema.Unambiguous)
    {compiled otherCompiled : CompiledSheet} (hcompiled : ofWorksheet rules sheet = .ok compiled)
    (hotherCompiled : ofWorksheet rules other = .ok otherCompiled) :
    List.Forall₂ Record.Rearranged compiled.records otherCompiled.records :=
  forall₂_records_of_rows hschema hother (h.mem_ofColumns_iff hread hschema hother)
    (h.agrees hread hschema hother hunambiguous) (h.dataRows_eq hread hschema hother)
    (fun _ hrow _ _ => h.rearranged_ofRow hread hschema hother hunambiguous hrow)
    hcompiled hotherCompiled

/-- The order of columns matters to the order of fields only.  Take a worksheet that can be read and
whose usable columns are unambiguous, and move its columns.  Then both worksheets fail, for faults
of one kind, or both compile: to as many records, equal one by one up to the order of fields, and
with the same types and defaults in some order. -/
theorem rearranged_ofWorksheet (h : rules.MovesColumns move sheet other)
    (hread : rules.CanRead sheet)
    (hunambiguous : ∀ schema, Schema.ofSheet rules sheet = .ok schema → schema.Unambiguous) :
    (∃ fault otherFault, ofWorksheet rules sheet = .error fault ∧
      ofWorksheet rules other = .error otherFault ∧ fault.kind = otherFault.kind) ∨
    ∃ compiled otherCompiled schema otherSchema, ofWorksheet rules sheet = .ok compiled ∧
      ofWorksheet rules other = .ok otherCompiled ∧ Schema.ofSheet rules sheet = .ok schema ∧
      Schema.ofSheet rules other = .ok otherSchema ∧
      List.Forall₂ Record.Rearranged compiled.records otherCompiled.records ∧
      compiled.types.Perm otherCompiled.types ∧
      schema.fallbacks.Perm otherSchema.fallbacks := by
  have hotherRead := h.canRead hread
  cases hcompiled : ofWorksheet rules sheet with
  | error fault =>
    have hcause := (cause_of_ofWorksheet hcompiled).resolve_right
      (hread.not_failsToRead fault)
    obtain ⟨otherFault, hotherCause, hkind⟩ := h.exists_cause hread hcause
    exact Or.inl ⟨fault, otherFault, rfl, eq_error_of_cause hotherRead hotherCause, hkind⟩
  | ok compiled =>
    cases hotherCompiled : ofWorksheet rules other with
    | error otherFault =>
      -- the reason for that would be one for the first worksheet
      have hotherCause := (cause_of_ofWorksheet hotherCompiled).resolve_right
        (hotherRead.not_failsToRead otherFault)
      obtain ⟨fault, hcause, -⟩ := h.symm.exists_cause hotherRead hotherCause
      exact absurd hcompiled (not_ok_of_cause hcause compiled)
    | ok otherCompiled =>
      obtain ⟨schema, hschema, htypes⟩ := exists_schema hcompiled
      obtain ⟨otherSchema, hother, hotherTypes⟩ := exists_schema hotherCompiled
      have hclear := hunambiguous schema hschema
      refine Or.inr ⟨compiled, otherCompiled, schema, otherSchema, rfl, rfl, hschema, hother,
        forall₂_records h hread hschema hother hclear hcompiled hotherCompiled, ?_,
        h.fallbacks_perm hread hschema hother hclear⟩
      rw [htypes, hotherTypes]
      exact h.types_perm hread hschema hother hclear

/-- The places of four columns, read from right to left. -/
def mirror : Equiv.Perm Nat := (Equiv.swap 3 4).trans (Equiv.swap 2 5)

theorem mirror_of_lt {column : Nat} (h : 5 < column) : mirror column = column := by
  have hinner : Equiv.swap 3 4 column = column :=
    Equiv.swap_apply_of_ne_of_ne (by omega) (by omega)
  have houter : Equiv.swap 2 5 column = column :=
    Equiv.swap_apply_of_ne_of_ne (by omega) (by omega)
  rw [mirror, Equiv.trans_apply, hinner, houter]

/-- The inventory with its columns from right to left. -/
def mirroredInventory : Grid where
  name := "Inventory"
  rows := [
    ["#var", "Items", "Items", "Items", "Owner"],
    ["#var", "Grade", "Tags", "Name", ""],
    ["#type", "list", "list", "list", "string"],
    ["#type", "string", "list", "string", ""],
    ["#default", "C", "", "", ""],
    ["", "", "sharp", "Sword", "Ann"],
    ["", "", "old", "", ""],
    ["", "", "", "Shield", ""],
    ["", "", "", "", ""],
    ["", "", "", "", "Bob"]]

theorem movesColumns_inventory (hclip : rules.clip inventory.extent = ⟨10, 5⟩)
    (hother : rules.clip mirroredInventory.extent = ⟨10, 5⟩) :
    rules.MovesColumns mirror inventory.worksheet mirroredInventory.worksheet := by
  refine ⟨rfl, ?_, fun extent hextent => ⟨?_, fun column hlt => ?_⟩, ?_⟩
  · rw [Grid.worksheet_extent, Grid.worksheet_extent, Option.map_some, Option.map_some, hclip,
      hother]
  · decide
  · obtain rfl := Option.some.inj hextent
    rw [hclip] at hlt
    exact mirror_of_lt hlt
  · intro extent hextent row column hreaches
    obtain rfl := Option.some.inj hextent
    have hcells : ∀ row ∈ List.range' 1 10, ∀ column ∈ List.range' 1 5,
        (inventory.worksheet.cellText row column).map Record.ofCell =
          (mirroredInventory.worksheet.cellText row (mirror column)).map Record.ofCell := by
      decide +kernel
    have hrows : min inventory.extent.rows rules.settings.maxRows = 10 :=
      congrArg Extent.rows hclip
    have hcolumns : min inventory.extent.columns rules.settings.maxColumns = 5 :=
      congrArg Extent.columns hclip
    have hrow := hreaches.row_le
    have hcolumn := hreaches.column_le
    rw [hcolumns, Worksheet.markerColumn] at hcolumn
    exact hcells row (List.mem_range'_1.mpr ⟨hreaches.row_pos, by omega⟩) column
      (List.mem_range'_1.mpr ⟨hreaches.column_pos, by omega⟩)

/-- From right to left the inventory compiles to the same records with other orders of fields. -/
theorem inventory_rearranged : ∃ rules compiled other,
    Rules.ofSettings {} = .ok rules ∧
    rules.MovesColumns mirror inventory.worksheet mirroredInventory.worksheet ∧
    rules.CanRead inventory.worksheet ∧
    (∀ schema, Schema.ofSheet rules inventory.worksheet = .ok schema → schema.Unambiguous) ∧
    ofWorksheet rules inventory.worksheet = .ok compiled ∧
    ofWorksheet rules mirroredInventory.worksheet = .ok other ∧
    compiled.records ≠ other.records ∧
    List.Forall₂ Record.Rearranged compiled.records other.records ∧
    compiled.types.Perm other.types := by
  have hsome : ((Rules.ofSettings {}).toOption.bind fun rules =>
      (Schema.ofSheet rules inventory.worksheet).toOption.bind fun schema =>
        (ofWorksheet rules inventory.worksheet).toOption.bind fun compiled =>
          (ofWorksheet rules mirroredInventory.worksheet).toOption.map fun other =>
            (rules.clip inventory.extent, rules.clip mirroredInventory.extent,
              decide (schema.Unambiguous ∧ compiled.records ≠ other.records))) =
      some (⟨10, 5⟩, ⟨10, 5⟩, true) := by
    decide +kernel
  obtain ⟨rules, hrules, hsome⟩ := Option.bind_eq_some_iff.mp hsome
  obtain ⟨schema, hschema, hsome⟩ := Option.bind_eq_some_iff.mp hsome
  obtain ⟨compiled, hcompiled, hsome⟩ := Option.bind_eq_some_iff.mp hsome
  obtain ⟨other, hother, hfacts⟩ := Option.map_eq_some_iff.mp hsome
  simp only [Prod.mk.injEq, decide_eq_true_eq] at hfacts
  obtain ⟨hclip, hotherClip, hunambiguous, hne⟩ := hfacts
  have hrules := eq_ok_of_toOption hrules
  have hcompiled := eq_ok_of_toOption hcompiled
  have hother := eq_ok_of_toOption hother
  have hmoves := movesColumns_inventory hclip hotherClip
  have hread := canRead_grid rules (show inventory.merged = [] from rfl)
  have hclear : ∀ found, Schema.ofSheet rules inventory.worksheet = .ok found →
      found.Unambiguous := by
    intro found hfound
    rw [eq_ok_of_toOption hschema, Except.ok.injEq] at hfound
    exact hfound ▸ hunambiguous
  refine ⟨rules, compiled, other, hrules, hmoves, hread, hclear, hcompiled, hother, hne, ?_⟩
  rcases rearranged_ofWorksheet hmoves hread hclear with ⟨fault, -, hfault, -⟩ |
    ⟨found, otherFound, -, -, hfound, hotherFound, -, -, hrecords, htypes, -⟩
  · rw [hcompiled] at hfault
    cases hfault
  · obtain rfl := Except.ok.inj (hcompiled.symm.trans hfound)
    obtain rfl := Except.ok.inj (hother.symm.trans hotherFound)
    exact ⟨hrecords, htypes⟩

end CompiledSheet

end SheetCompiler
