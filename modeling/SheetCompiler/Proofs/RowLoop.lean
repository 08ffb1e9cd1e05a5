import SheetCompiler.Compiled.Sheet
import SheetCompiler.Proofs.Growth

/-!
# The row loop

The rows below a header are read one by one, and each is taken in by the records so far.  As long as
these conform to the header nothing can go wrong but the reading itself, and a row does one of four
things (`CompiledSheet.takeIn`): it is skipped, it starts the first record, it grows the last
record, or it starts a further one.  Which of them it does depends on the row alone, apart from
whether there is a record yet.

The records conform after every row (`conforms_of_foldlM`), so the loop as a whole is a fold of
`takeIn` over the raw rows (`foldlM_addRow`), and pruning and shaping again would change nothing
(`records_conform`).
-/

namespace SheetCompiler

namespace CompiledSheet

open Value (IsRaw)
open Record (continues growFields itemFits_growFields)

variable {layout : Layout} {sheet : Worksheet} {outline : Outline}

/-- Every record has the shape that the header gives it. -/
def Conforms (layout : Layout) (outline : Outline) (records : List Record) : Prop :=
  ∀ record ∈ records, layout.ItemFits "" outline (.record record)

/-- The record that a raw row starts. -/
def newRecord (layout : Layout) (raw : Record) : Record :=
  Record.shapedFields layout "" (Record.fill layout "" raw)

/-- The records after a raw row was taken in, newest first. -/
def takeIn (layout : Layout) (records : List Record) (raw : Record) : List Record :=
  if Value.fieldsEmpty raw then records
  else
    match records with
    | [] => [newRecord layout raw]
    | previous :: earlier =>
      if continues layout "" raw then growFields layout "" previous raw :: earlier
      else newRecord layout raw :: previous :: earlier

theorem takeIn_of_fieldsEmpty {raw : Record} (h : Value.fieldsEmpty raw = true)
    (records : List Record) : takeIn layout records raw = records := by
  rw [takeIn.eq_def, if_pos h]

theorem takeIn_nil {raw : Record} (h : Value.fieldsEmpty raw = false) :
    takeIn layout [] raw = [newRecord layout raw] := by
  rw [takeIn, if_neg (Bool.eq_false_iff.mp h)]

theorem takeIn_cons {raw : Record} (h : Value.fieldsEmpty raw = false) (previous : Record)
    (earlier : List Record) :
    takeIn layout (previous :: earlier) raw =
      if continues layout "" raw then growFields layout "" previous raw :: earlier
      else newRecord layout raw :: previous :: earlier := by
  rw [takeIn, if_neg (Bool.eq_false_iff.mp h)]

/-- A row that continues no record starts one. -/
theorem takeIn_of_not_continues {raw : Record} (h : Value.fieldsEmpty raw = false)
    (hcontinues : continues layout "" raw = false) (records : List Record) :
    takeIn layout records raw = newRecord layout raw :: records := by
  cases records with
  | nil => rw [takeIn_nil h]
  | cons previous earlier => rw [takeIn_cons h, hcontinues, if_neg Bool.false_ne_true]

/-- What holds of the records, and of the ones that a raw row starts or grows, holds of all records
after the row was taken in. -/
theorem forall_takeIn {P : Record → Prop} {raw : Record} {records : List Record}
    (hrecords : ∀ record ∈ records, P record)
    (hnew : Value.fieldsEmpty raw = false → P (newRecord layout raw))
    (hgrow : ∀ previous, P previous → P (growFields layout "" previous raw)) :
    ∀ record ∈ takeIn layout records raw, P record := by
  cases hfilled : Value.fieldsEmpty raw with
  | true => rwa [takeIn_of_fieldsEmpty hfilled]
  | false =>
    cases records with
    | nil =>
      rw [takeIn_nil hfilled]
      exact List.forall_mem_singleton.mpr (hnew hfilled)
    | cons previous earlier =>
      obtain ⟨hprevious, hearlier⟩ := List.forall_mem_cons.mp hrecords
      rw [takeIn_cons hfilled]
      split
      · exact List.forall_mem_cons.mpr ⟨hgrow previous hprevious, hearlier⟩
      · exact List.forall_mem_cons.mpr ⟨hnew hfilled, hrecords⟩

/-! ## One row -/

/-- A row in which something is filled starts a record just as an item of a list is made. -/
theorem newItem_eq_newRecord {raw : Record} (hd : layout.Declares "" outline)
    (h : IsRaw outline (.record raw)) (hfilled : Value.fieldsEmpty raw = false) :
    Record.newItem layout "" (.record raw) = .record (newRecord layout raw) := by
  have hfill : Value.fieldsEmpty (Record.fill layout "" raw) = false :=
    Record.isEmpty_fillValue h hfilled
  have hraw := Record.isRaw_fill hd h
  rw [Record.newItem, Record.fillValue, Record.shaped_record hraw hfill, newRecord]

theorem itemFits_newRecord {raw : Record} (hd : layout.Declares "" outline)
    (h : IsRaw outline (.record raw)) (hfilled : Value.fieldsEmpty raw = false) :
    layout.ItemFits "" outline (.record (newRecord layout raw)) := by
  rw [← newItem_eq_newRecord hd h hfilled]
  exact Record.itemFits_newItem hd h hfilled

theorem startRecord_eq {raw : Record} (hd : layout.Declares "" outline)
    (h : IsRaw outline (.record raw)) (row : Nat) :
    startRecord layout sheet row raw = .ok (newRecord layout raw) := by
  rw [startRecord, Record.shape_of_typed (Record.typed_of_isRaw hd (Record.isRaw_fill hd h)),
    settle_done, newRecord]

/-- On records that conform, a raw row is always taken in. -/
theorem addRaw_eq_takeIn {raw : Record} (hd : layout.Declares "" outline)
    (h : IsRaw outline (.record raw)) {records : List Record}
    (hrecords : Conforms layout outline records) (row : Nat) :
    addRaw layout sheet records row raw = .ok (takeIn layout records raw) := by
  rw [addRaw, Record.shape_of_typed (Record.typed_of_isRaw hd h), settle_done, startRecord_eq hd h]
  show (if Value.fieldsEmpty (Record.shapedFields layout "" raw) = true then _ else _) = _
  rw [Record.fieldsEmpty_shapedFields h]
  cases hfilled : Value.fieldsEmpty raw with
  | true => rw [if_pos rfl, takeIn_of_fieldsEmpty hfilled]; rfl
  | false =>
    rw [if_neg Bool.false_ne_true]
    cases records with
    | nil => rw [takeIn_nil hfilled]; rfl
    | cons previous earlier =>
      have hprevious := hrecords previous List.mem_cons_self
      rw [takeIn_cons hfilled]
      simp only [Record.merge?_shaped hd h hfilled hprevious]
      by_cases hcontinues : continues layout "" raw = true
      · rw [if_pos hcontinues, if_pos hcontinues]
        show Except.ok (Record.prune (growFields layout "" previous raw) :: earlier) = _
        rw [Record.prune_of_fits (itemFits_growFields hd h hprevious)]
      · rw [if_neg hcontinues, if_neg hcontinues]
        rfl

/-- Records that conform still do after a raw row was taken in. -/
theorem conforms_takeIn {raw : Record} (hd : layout.Declares "" outline)
    (h : IsRaw outline (.record raw)) {records : List Record}
    (hrecords : Conforms layout outline records) :
    Conforms layout outline (takeIn layout records raw) :=
  forall_takeIn hrecords (itemFits_newRecord hd h) fun _ => itemFits_growFields hd h

/-! ## All rows -/

/-- The raw records of some rows, from the first to the last. -/
def rawRows (sheet : Worksheet) (columns : List Column) (rows : List Nat) :
    Except SheetFault (List Record) :=
  rows.mapM (Record.ofRow sheet columns)

theorem rawRows_nil (sheet : Worksheet) (columns : List Column) :
    rawRows sheet columns [] = .ok [] := rfl

theorem rawRows_cons (sheet : Worksheet) (columns : List Column) (row : Nat) (rows : List Nat) :
    rawRows sheet columns (row :: rows) = (Record.ofRow sheet columns row).bind fun raw =>
      (rawRows sheet columns rows).map fun raws => raw :: raws := by
  rw [rawRows, List.mapM_cons]
  rfl

/-- Rows that are read give one raw record each. -/
theorem forall₂_rawRows {columns : List Column} {rows : List Nat} {raws : List Record}
    (h : rawRows sheet columns rows = .ok raws) :
    List.Forall₂ (fun row raw => Record.ofRow sheet columns row = .ok raw) rows raws := by
  induction rows generalizing raws with
  | nil =>
    rw [rawRows_nil, Except.ok.injEq] at h
    rw [← h]
    exact .nil
  | cons row rows ih =>
    rw [rawRows_cons] at h
    obtain ⟨raw, hraw, h⟩ := bind_eq_ok.mp h
    obtain ⟨rest, hrest, rfl⟩ := map_eq_ok.mp h
    exact .cons hraw (ih hrest)

/-- The rows that are read are raw. -/
theorem isRaw_of_rawRows {columns : List Column} {rows : List Nat} {raws : List Record}
    (h : rawRows sheet columns rows = .ok raws) :
    ∀ raw ∈ raws, IsRaw (Outline.ofColumns columns) (.record raw) := by
  have hrows := forall₂_rawRows h
  clear h
  induction hrows with
  | nil => simp
  | cons hrow _ ih => exact List.forall_mem_cons.mpr ⟨Record.isRaw_ofRow hrow, ih⟩

/-- The loop over some rows reads them and takes them in one after another. -/
theorem foldlM_addRow (hd : layout.Declares "" (Outline.ofColumns layout.schema.columns))
    {rows : List Nat} {records : List Record}
    (hrecords : Conforms layout (Outline.ofColumns layout.schema.columns) records) :
    rows.foldlM (addRow layout sheet) records =
      (rawRows sheet layout.schema.columns rows).map fun raws =>
        raws.foldl (takeIn layout) records := by
  induction rows generalizing records with
  | nil => rfl
  | cons row rows ih =>
    rw [List.foldlM_cons, rawRows_cons, addRow]
    cases hraw : Record.ofRow sheet layout.schema.columns row with
    | error fault => rfl
    | ok raw =>
      have h := Record.isRaw_ofRow hraw
      show (addRaw layout sheet records row raw).bind _ = _
      rw [addRaw_eq_takeIn hd h hrecords]
      show rows.foldlM (addRow layout sheet) (takeIn layout records raw) = _
      rw [ih (conforms_takeIn hd h hrecords)]
      cases rawRows sheet layout.schema.columns rows <;> rfl

theorem conforms_foldl (hd : layout.Declares "" outline) {raws : List Record}
    (h : ∀ raw ∈ raws, IsRaw outline (.record raw)) {records : List Record}
    (hrecords : Conforms layout outline records) :
    Conforms layout outline (raws.foldl (takeIn layout) records) := by
  induction raws generalizing records with
  | nil => exact hrecords
  | cons raw raws ih =>
    obtain ⟨hraw, hrest⟩ := List.forall_mem_cons.mp h
    exact ih hrest (conforms_takeIn hd hraw hrecords)

/-- The records conform after any number of rows. -/
theorem conforms_of_foldlM (hd : layout.Declares "" (Outline.ofColumns layout.schema.columns))
    {rows : List Nat} {records : List Record}
    (h : rows.foldlM (addRow layout sheet) [] = .ok records) :
    Conforms layout (Outline.ofColumns layout.schema.columns) records := by
  have hnone : Conforms layout (Outline.ofColumns layout.schema.columns) [] := by simp [Conforms]
  rw [foldlM_addRow hd hnone] at h
  obtain ⟨raws, hraws, rfl⟩ := map_eq_ok.mp h
  exact conforms_foldl hd (isRaw_of_rawRows hraws) hnone

/-- A worksheet with a schema compiles if its rows can be read, and what it compiles to is the fold
of `takeIn` over them. -/
theorem ofWorksheet_eq {rules : Rules} {schema : Schema}
    (h : Schema.ofSheet rules sheet = .ok schema) :
    ofWorksheet rules sheet = (rawRows sheet schema.columns (dataRows schema)).map fun raws =>
      ⟨sheet.name, schema.types, (raws.foldl (takeIn ⟨schema, rules.settings⟩) []).reverse,
        schema.metadata⟩ := by
  have hd := Layout.declares_of_lawful (Schema.lawful_ofSheet h) rules.settings
  have hnone : Conforms ⟨schema, rules.settings⟩ (Outline.ofColumns schema.columns) [] := by
    simp [Conforms]
  rw [ofWorksheet, h]
  show ((dataRows schema).foldlM (addRow ⟨schema, rules.settings⟩ sheet) []).bind _ = _
  rw [foldlM_addRow hd hnone]
  cases rawRows sheet schema.columns (dataRows schema) <;> rfl

/-- What a worksheet compiles to, when it does. -/
theorem ofWorksheet_eq_ok {rules : Rules} {schema : Schema} {compiled : CompiledSheet}
    (h : Schema.ofSheet rules sheet = .ok schema)
    (hcompiled : ofWorksheet rules sheet = .ok compiled) :
    ∃ raws, rawRows sheet schema.columns (dataRows schema) = .ok raws ∧
      compiled.records = (raws.foldl (takeIn ⟨schema, rules.settings⟩) []).reverse := by
  rw [ofWorksheet_eq h] at hcompiled
  obtain ⟨raws, hraws, rfl⟩ := map_eq_ok.mp hcompiled
  exact ⟨raws, hraws, rfl⟩

/-! ## Every record conforms -/

/-- Neither the shape nor the pruning of a record that conforms changes it. -/
theorem Conforms.stable (hd : layout.Declares "" outline) {records : List Record}
    (h : Conforms layout outline records) : ∀ record ∈ records,
      Record.shape layout "" record = .done record ∧ Record.prune record = record :=
  fun record hrecord => ⟨Record.shape_of_fits hd (h record hrecord),
    Record.prune_of_fits (h record hrecord)⟩

theorem conforms_ofWorksheet {rules : Rules} {sheet : Worksheet} {schema : Schema}
    {compiled : CompiledSheet} (h : Schema.ofSheet rules sheet = .ok schema)
    (hcompiled : ofWorksheet rules sheet = .ok compiled) :
    Conforms ⟨schema, rules.settings⟩ (Outline.ofColumns schema.columns) compiled.records := by
  have hd := Layout.declares_of_lawful (Schema.lawful_ofSheet h) rules.settings
  obtain ⟨raws, hraws, hrecords⟩ := ofWorksheet_eq_ok h hcompiled
  rw [hrecords]
  intro record hrecord
  exact conforms_foldl hd (isRaw_of_rawRows hraws) (by simp [Conforms]) record
    (List.mem_reverse.mp hrecord)

/-- After every row, and so in the end, each record has the shape that the header gives it, and
shaping or pruning it once more changes nothing. -/
theorem records_conform {rules : Rules} {sheet : Worksheet} {schema : Schema}
    (h : Schema.ofSheet rules sheet = .ok schema) :
    (∀ count records, ((dataRows schema).take count).foldlM
        (addRow ⟨schema, rules.settings⟩ sheet) [] = .ok records →
      Conforms ⟨schema, rules.settings⟩ (Outline.ofColumns schema.columns) records ∧
        ∀ record ∈ records, Record.shape ⟨schema, rules.settings⟩ "" record = .done record ∧
          Record.prune record = record) ∧
    ∀ compiled, ofWorksheet rules sheet = .ok compiled →
      Conforms ⟨schema, rules.settings⟩ (Outline.ofColumns schema.columns) compiled.records ∧
        ∀ record ∈ compiled.records,
          Record.shape ⟨schema, rules.settings⟩ "" record = .done record ∧
            Record.prune record = record := by
  have hd := Layout.declares_of_lawful (Schema.lawful_ofSheet h) rules.settings
  constructor
  · intro count records hrun
    have hrecords := conforms_of_foldlM hd hrun
    exact ⟨hrecords, hrecords.stable hd⟩
  · intro compiled hcompiled
    have hrecords := conforms_ofWorksheet h hcompiled
    exact ⟨hrecords, hrecords.stable hd⟩

/-- An inventory with lists within a list, a default, rows that continue an item and a blank row. -/
def inventory : Grid where
  name := "Inventory"
  rows := [
    ["#var", "Owner", "Items", "Items", "Items"],
    ["#var", "", "Name", "Tags", "Grade"],
    ["#type", "string", "list", "list", "list"],
    ["#type", "", "string", "list", "string"],
    ["#default", "", "", "", "C"],
    ["", "Ann", "Sword", "sharp", ""],
    ["", "", "", "old", ""],
    ["", "", "Shield", "", ""],
    ["", "", "", "", ""],
    ["", "Bob", "", "", ""]]

/-- What the inventory compiles to.  The second row continues the first item of Ann's, the third one
adds an item; Bob has an item only because grades have a default. -/
def inventoryRecords : List Record := [
  [("Owner", .scalar "Ann"), ("Items", .list [
    .record [("Name", .scalar "Sword"), ("Tags", .list [.scalar "sharp", .scalar "old"]),
      ("Grade", .scalar "C")],
    .record [("Name", .scalar "Shield"), ("Tags", .null), ("Grade", .scalar "C")]])],
  [("Owner", .scalar "Bob"), ("Items", .list [
    .record [("Name", .null), ("Tags", .null), ("Grade", .scalar "C")]])]]

theorem inventory_compiles : ∃ rules schema compiled, Rules.ofSettings {} = .ok rules ∧
    Schema.ofSheet rules inventory.worksheet = .ok schema ∧
    ofWorksheet rules inventory.worksheet = .ok compiled ∧
    schema.columns.map Column.segments =
      [["Owner"], ["Items", "Name"], ["Items", "Tags"], ["Items", "Grade"]] ∧
    compiled.records = inventoryRecords := by
  have hsome : ((Rules.ofSettings {}).toOption.bind fun rules =>
      (Schema.ofSheet rules inventory.worksheet).toOption.bind fun schema =>
        (ofWorksheet rules inventory.worksheet).toOption.map fun compiled =>
          (schema.columns.map Column.segments, compiled.records)) =
      some ([["Owner"], ["Items", "Name"], ["Items", "Tags"], ["Items", "Grade"]],
        inventoryRecords) := by
    decide +kernel
  obtain ⟨rules, hrules, hsome⟩ := Option.bind_eq_some_iff.mp hsome
  obtain ⟨schema, hschema, hsome⟩ := Option.bind_eq_some_iff.mp hsome
  obtain ⟨compiled, hcompiled, hboth⟩ := Option.map_eq_some_iff.mp hsome
  obtain ⟨hcolumns, hrecords⟩ := Prod.mk.inj hboth
  exact ⟨rules, schema, compiled, eq_ok_of_toOption hrules, eq_ok_of_toOption hschema,
    eq_ok_of_toOption hcompiled, hcolumns, hrecords⟩

/-- The two records of the inventory conform to its header. -/
theorem inventory_records_conform : ∃ rules schema compiled,
    Schema.ofSheet rules inventory.worksheet = .ok schema ∧
    ofWorksheet rules inventory.worksheet = .ok compiled ∧ compiled.records.length = 2 ∧
    Conforms ⟨schema, rules.settings⟩ (Outline.ofColumns schema.columns) compiled.records := by
  obtain ⟨rules, schema, compiled, -, hschema, hcompiled, -, hrecords⟩ := inventory_compiles
  refine ⟨rules, schema, compiled, hschema, hcompiled, by rw [hrecords]; rfl, ?_⟩
  exact ((records_conform hschema).2 compiled hcompiled).1

end CompiledSheet

end SheetCompiler
