import Mathlib.Control.Monad.Basic
import SheetCompiler.Proofs.Footprint

/-!
# Only blankness shapes records

The texts of the data cells end up in the records, but they have no part in how these are built:
which rows start a record, which items a list gets, which fields are there and which hold nothing is
told by the blank cells alone.

`Value.mask` puts one and the same text in the place of every text of a value.  Everything that is
done to raw rows commutes with it, provided that the defaults are masked as well (`Layout.masked`):
placing cells (`Record.place_mask`), filling in defaults (`Record.fillField_mask`), shaping
(`Record.shaped_mask`), growing lists and records (`Record.growSlot_mask`) and taking in a row
(`CompiledSheet.takeIn_mask`).  So the masked records of a worksheet are made from its masked rows,
and worksheets with the same header whose data rows have their blank cells in the same places
compile to the same but for the texts (`CompiledSheet.masked_ofWorksheet_eq_of_sameBlanks`).

The stand-in text is not empty, since no text of a raw row is.
-/

namespace SheetCompiler

/-! ## Masks -/

namespace Value

/-- The text that stands in for every other one. -/
def standIn : String := "text"

mutual

/-- A value with every text replaced by the stand-in. -/
def mask : Value → Value
  | .null => .null
  | .scalar _ => .scalar standIn
  | .record fields => .record (maskFields fields)
  | .list items => .list (maskItems items)

/-- Fields with every text replaced by the stand-in. -/
def maskFields : List (String × Value) → List (String × Value)
  | [] => []
  | (name, value) :: rest => (name, mask value) :: maskFields rest

/-- Items with every text replaced by the stand-in. -/
def maskItems : List Value → List Value
  | [] => []
  | item :: rest => mask item :: maskItems rest

end

end Value

/-- A record with every text replaced by the stand-in. -/
def Record.mask (record : Record) : Record := record.map fun field => (field.1, field.2.mask)

@[simp] theorem Record.mask_nil : Record.mask [] = [] := rfl

@[simp] theorem Record.mask_cons (field : String × Value) (rest : Record) :
    Record.mask (field :: rest) = (field.1, field.2.mask) :: Record.mask rest := rfl

namespace Value

@[simp] theorem mask_null : mask .null = .null := by rw [mask]

@[simp] theorem mask_scalar (text : String) : mask (.scalar text) = .scalar standIn := by rw [mask]

@[simp] theorem mask_record (fields : Record) :
    mask (.record fields) = .record (Record.mask fields) := by
  rw [mask]
  congr 1
  induction fields with
  | nil => rw [maskFields, Record.mask_nil]
  | cons field rest ih => rw [maskFields, ih, Record.mask_cons]

@[simp] theorem mask_list (items : List Value) : mask (.list items) = .list (items.map mask) := by
  rw [mask]
  congr 1
  induction items with
  | nil => rw [maskItems, List.map_nil]
  | cons item rest ih => rw [maskItems, ih, List.map_cons]

/-- What is a record after masking was one before. -/
theorem eq_record_of_mask {value : Value} {fields : Record} (h : value.mask = .record fields) :
    ∃ inner, value = .record inner ∧ Record.mask inner = fields := by
  cases value with
  | null => cases mask_null.symm.trans h
  | scalar text => cases (mask_scalar text).symm.trans h
  | record inner => exact ⟨inner, rfl, record.inj ((mask_record inner).symm.trans h)⟩
  | list items => cases (mask_list items).symm.trans h

theorem wrap_mask (value : Value) : value.mask.wrap = value.wrap.mask := by
  cases value with
  | null => rw [mask_null, wrap_null, mask_null]
  | scalar text => rw [mask_scalar, wrap_scalar, wrap_scalar, mask_list, List.map_singleton,
      mask_scalar]
  | record fields => rw [mask_record, wrap_record, wrap_record, mask_list, List.map_singleton,
      mask_record]
  | list items => rw [mask_list, wrap_list, wrap_list, mask_list]

theorem lastItem?_mask (slot : Value) : slot.mask.lastItem? = slot.lastItem?.map mask := by
  cases slot with
  | null => rw [mask_null]; rfl
  | scalar text => rw [mask_scalar]; rfl
  | record fields => rw [mask_record]; rfl
  | list items => rw [mask_list, lastItem?, lastItem?, List.getLast?_map]

theorem replaceLast_mask (item slot : Value) :
    replaceLast item.mask slot.mask = (replaceLast item slot).mask := by
  cases slot with
  | null => simp [replaceLast]
  | scalar text => simp [replaceLast]
  | record fields => simp [replaceLast]
  | list items => simp [replaceLast]

theorem addItem_mask (item slot : Value) :
    addItem item.mask slot.mask = (addItem item slot).mask := by
  cases slot with
  | null => simp [addItem]
  | scalar text => simp [addItem]
  | record fields => simp [addItem]
  | list items => simp [addItem]

/-! ## Masks of raw values -/

theorem isCell_mask {value : Value} (h : value.IsCell) : value.mask.IsCell := by
  cases value with
  | null => rwa [mask_null]
  | scalar text =>
    rw [mask_scalar]
    rfl
  | record fields => exact h.elim
  | list items => exact h.elim

theorem isRaw_mask {outline : Outline} {value : Value} (h : IsRaw outline value) :
    IsRaw outline value.mask := by
  induction h with
  | cell hleaf hcell => exact .cell hleaf (isCell_mask hcell)
  | @record outline fields hbranch hnames hfields ih =>
    rw [mask_record]
    refine .record hbranch ?_ ?_
    · rw [← hnames, Record.mask, Entries.names, Entries.names, List.map_map]
      rfl
    · intro field hfield
      obtain ⟨old, hold, rfl⟩ := List.mem_map.mp hfield
      exact ih old hold

/-- A raw value has no empty text, so masking keeps it empty or filled. -/
theorem isEmpty_mask {outline : Outline} {value : Value} (h : IsRaw outline value) :
    value.mask.isEmpty = value.isEmpty := by
  induction h with
  | @cell outline value hleaf hcell =>
    cases value with
    | null => rw [mask_null]
    | scalar text =>
      rw [mask_scalar, isEmpty_scalar, isEmpty_scalar, show text.isEmpty = false from hcell]
      rfl
    | record fields => exact hcell.elim
    | list items => exact hcell.elim
  | record hbranch hnames hfields ih =>
    rw [mask_record, isEmpty_record, isEmpty_record]
    exact Record.fieldsEmpty_congr ih

end Value

/-- A cell is blank when it is absent, empty or white space. -/
def Text.isBlankCell (cell : Option String) : Bool := cell.all Text.isBlankText

namespace Worksheet

/-- A cell with its text replaced by the stand-in, unless it is blank. -/
def maskCell (cell : Option String) : Option String :=
  if Text.isBlankCell cell then none else some Value.standIn

/-- The worksheet with masked cells. -/
def masked (sheet : Worksheet) : Worksheet :=
  { sheet with rawCell := fun row column => (sheet.rawCell row column).map maskCell }

theorem cellText_masked (sheet : Worksheet) (row column : Nat) :
    sheet.masked.cellText row column = (sheet.cellText row column).map maskCell := by
  rw [cellText, cellText, show sheet.masked.anchor = sheet.anchor from rfl]
  cases sheet.anchor row column <;> rfl

/-- Cells that are blank alike are the same when masked. -/
theorem map_maskCell_congr {first second : Except CellFault (Option String)}
    (h : first.map Text.isBlankCell = second.map Text.isBlankCell) :
    first.map maskCell = second.map maskCell := by
  have hmask : ∀ cell : Except CellFault (Option String), cell.map maskCell =
      (cell.map Text.isBlankCell).map fun blank =>
        if blank then none else some Value.standIn := by
    intro cell
    cases cell <;> rfl
  rw [hmask first, hmask second, h]

end Worksheet

/-- Two worksheets have their header rows in common, and the places of their blank data cells. -/
structure Rules.SameBlanks (rules : Rules) (sheet other : Worksheet) : Prop
    extends rules.SameHeader sheet other where
  data : ∀ schema, Schema.ofSheet rules sheet = .ok schema →
    ∀ row ∈ CompiledSheet.dataRows schema, ∀ column ∈ schema.columns,
      (sheet.cellText row column.index).map Text.isBlankCell =
        (other.cellText row column.index).map Text.isBlankCell

/-- The layout whose defaults are the stand-in. -/
def Layout.masked (layout : Layout) : Layout :=
  { layout with schema := { layout.schema with
      fallbacks := layout.schema.fallbacks.map fun entry => (entry.1, Value.standIn) } }

namespace Layout

theorem isList_masked (layout : Layout) (path : String) :
    layout.masked.isList path = layout.isList path := rfl

theorem mergesBelow_masked (layout : Layout) (path : String) :
    layout.masked.mergesBelow path = layout.mergesBelow path := rfl

/-- No default is empty. -/
def FilledDefaults (layout : Layout) : Prop :=
  ∀ path text, layout.fallback? path = some text → text.isEmpty = false

theorem fallback?_masked (layout : Layout) (path : String) :
    layout.masked.fallback? path = (layout.fallback? path).map fun _ => Value.standIn :=
  Entries.get?_map path (fun _ => Value.standIn) layout.schema.fallbacks

end Layout

/-! ## Rows -/

namespace Record

open Value (IsRaw isRaw_mask isEmpty_mask)

variable {layout : Layout} {outline : Outline}

theorem get?_mask (name : String) (record : Record) :
    Entries.get? name (mask record) = (Entries.get? name record).map Value.mask :=
  Entries.get?_map name (fun field : String × Value => field.2.mask) record

theorem put_mask (name : String) (value : Value) (record : Record) :
    Entries.put name value.mask (mask record) = mask (Entries.put name value record) := by
  induction record with
  | nil => rfl
  | cons field rest ih =>
    rw [mask_cons, Entries.put, Entries.put]
    split
    · rw [mask_cons]
    · rw [ih, mask_cons]

theorem isRaw_mask_record {record : Record} (h : IsRaw outline (.record record)) :
    IsRaw outline (.record (mask record)) := by
  rw [← Value.mask_record]
  exact isRaw_mask h

theorem fieldsEmpty_mask {record : Record} (h : IsRaw outline (.record record)) :
    Value.fieldsEmpty (mask record) = Value.fieldsEmpty record := by
  rw [← Value.isEmpty_record, ← Value.mask_record, isEmpty_mask h, Value.isEmpty_record]

/-- Whether a cell can be placed does not depend on its text, nor on those that are there. -/
theorem place_mask (cell : Value) : ∀ (path : List String) (record : Record),
    place cell.mask path (mask record) = (place cell path record).map mask
  | [], record => rfl
  | [name], record => by
    rw [place, place, get?_mask]
    cases hget : Entries.get? name record with
    | none => rw [Option.map_none, Option.map_some, put_mask]
    | some value =>
      cases value with
      | null => rw [Option.map_some, Value.mask_null, Option.map_some, put_mask]
      | scalar text => rw [Option.map_some, Value.mask_scalar, Option.map_some, put_mask]
      | record fields => rw [Option.map_some, Value.mask_record, Option.map_none]
      | list items => rw [Option.map_some, Value.mask_list, Option.map_some, put_mask]
  | name :: next :: rest, record => by
    have hput : ∀ inner : Option Record,
        (inner.map mask).map (fun inner => Entries.put name (.record inner) (mask record)) =
          (inner.map fun inner => Entries.put name (.record inner) record).map mask := by
      intro inner
      rw [Option.map_map, Option.map_map]
      congr 1
      funext inner
      rw [Function.comp_apply, Function.comp_apply, ← Value.mask_record, put_mask]
    rw [place, place, get?_mask]
    cases hget : Entries.get? name record with
    | none =>
      rw [Option.map_none]
      show (place cell.mask (next :: rest) (mask [])).map _ = _
      rw [place_mask cell (next :: rest) [], hput]
    | some value =>
      cases value with
      | null => rw [Option.map_some, Value.mask_null, Option.map_none]
      | scalar text => rw [Option.map_some, Value.mask_scalar, Option.map_none]
      | record fields =>
        rw [Option.map_some, Value.mask_record]
        show (place cell.mask (next :: rest) (mask fields)).map _ = _
        rw [place_mask cell (next :: rest) fields, hput]
      | list items => rw [Option.map_some, Value.mask_list, Option.map_none]

theorem ofCell_maskCell (cell : Option String) :
    ofCell (Worksheet.maskCell cell) = (ofCell cell).mask := by
  cases cell with
  | none => rw [ofCell_none, Value.mask_null]; rfl
  | some text =>
    rw [Worksheet.maskCell, Text.isBlankCell, Option.all_some, ofCell_some]
    split
    · rw [ofCell_none, Value.mask_null]
    · rw [Value.mask_scalar]; rfl

theorem addCell_masked (sheet : Worksheet) (row : Nat) (column : Column) (record : Record) :
    addCell sheet.masked row (mask record) column =
      (addCell sheet row record column).map mask := by
  rw [addCell_eq, addCell_eq, Worksheet.cellText_masked]
  split
  · rfl
  · cases sheet.cellText row column.index with
    | error fault => rfl
    | ok cell =>
      dsimp only [Except.map, Except.mapError, Except.bind]
      rw [ofCell_maskCell, place_mask]
      cases place (ofCell cell) column.segments record <;> rfl

/-- A masked row is read from a masked worksheet. -/
theorem ofRow_masked (sheet : Worksheet) (columns : List Column) (row : Nat) :
    ofRow sheet.masked columns row = (ofRow sheet columns row).map mask :=
  foldlM_map mask (fun column _ record => addCell_masked sheet row column record) []

/-! ## Defaults and shape -/

theorem fill_mask_of_forall {path : String} {fields : Record}
    (h : ∀ field ∈ fields, fillField layout.masked (FieldPath.extend path field.1) field.2.mask =
      (fillField layout (FieldPath.extend path field.1) field.2).mask) :
    fill layout.masked path (mask fields) = mask (fill layout path fields) := by
  rw [fill_eq_map, fill_eq_map, mask, mask, List.map_map, List.map_map]
  refine List.map_congr_left fun field hfield => ?_
  rw [Function.comp_apply, Function.comp_apply, h field hfield]

theorem fillField_mask {value : Value} (h : IsRaw outline value) (path : String) :
    fillField layout.masked path value.mask = (fillField layout path value).mask := by
  induction h generalizing path with
  | @cell outline value hleaf hcell =>
    rw [fillField_of_isCell (Value.isCell_mask hcell), fillField_of_isCell hcell,
      Layout.fallback?_masked]
    cases layout.fallback? path with
    | none => rfl
    | some text =>
      cases value with
      | null => simp
      | scalar old =>
        have hold : old.isEmpty = false := hcell
        have hstandIn : Value.standIn.isEmpty = false := rfl
        simp [Value.fillLeaf, hold, hstandIn]
      | record fields => exact hcell.elim
      | list items => exact hcell.elim
  | @record outline fields hbranch hnames hfields ih =>
    rw [Value.mask_record, fillField, fillField, Layout.fallback?_masked, Option.isSome_map]
    split
    · rw [Value.mask_record]
    · rw [Value.mask_record, fill_mask_of_forall fun field hfield => ih field hfield _]

theorem fill_mask {fields : Record} (h : IsRaw outline (.record fields)) (path : String) :
    fill layout.masked path (mask fields) = mask (fill layout path fields) :=
  fill_mask_of_forall fun _ hfield => fillField_mask (h.field hfield) _

theorem fillValue_mask {value : Value} (h : IsRaw outline value) (path : String) :
    fillValue layout.masked path value.mask = (fillValue layout path value).mask := by
  cases value with
  | record fields => rw [Value.mask_record, fillValue, fillValue, fill_mask h, Value.mask_record]
  | null =>
    have hfill := @fillField_mask layout _ _ h path
    rwa [Value.mask_null] at hfill ⊢
  | scalar text =>
    have hfill := @fillField_mask layout _ _ h path
    rwa [Value.mask_scalar] at hfill ⊢
  | list items =>
    have hfill := @fillField_mask layout _ _ h path
    rwa [Value.mask_list] at hfill ⊢

theorem wrapAt_mask (path : String) (value : Value) :
    wrapAt layout.masked path value.mask = (wrapAt layout path value).mask := by
  rw [wrapAt, wrapAt, Layout.isList_masked]
  split
  · exact Value.wrap_mask value
  · rfl

theorem shapedFields_mask_of_forall {path : String} {fields : Record}
    (h : ∀ field ∈ fields, shaped layout.masked (FieldPath.extend path field.1) field.2.mask =
      (shaped layout (FieldPath.extend path field.1) field.2).mask) :
    shapedFields layout.masked path (mask fields) = mask (shapedFields layout path fields) := by
  rw [shapedFields_eq_map, shapedFields_eq_map, mask, mask, List.map_map, List.map_map]
  refine List.map_congr_left fun field hfield => ?_
  rw [Function.comp_apply, Function.comp_apply, h field hfield, wrapAt_mask]

theorem shaped_mask {value : Value} (h : IsRaw outline value) (path : String) :
    shaped layout.masked path value.mask = (shaped layout path value).mask := by
  induction h generalizing path with
  | @cell outline value hleaf hcell =>
    cases value with
    | null => rw [Value.mask_null, shaped, shaped, Value.mask_null]
    | scalar text => rw [Value.mask_scalar, shaped, shaped, Value.mask_scalar]
    | record fields => exact hcell.elim
    | list items => exact hcell.elim
  | @record outline fields hbranch hnames hfields ih =>
    have hraw := IsRaw.record hbranch hnames hfields
    cases hfilled : Value.fieldsEmpty fields with
    | true =>
      rw [shaped_of_isEmpty hraw (by rwa [Value.isEmpty_record]),
        shaped_of_isEmpty (isRaw_mask hraw) (by rwa [isEmpty_mask hraw, Value.isEmpty_record]),
        Value.mask_null]
    | false =>
      rw [shaped_record hraw hfilled, Value.mask_record, Value.mask_record,
        shaped_record (isRaw_mask_record hraw) (by rwa [fieldsEmpty_mask hraw]),
        shapedFields_mask_of_forall fun field hfield => ih field hfield _]

theorem shapedFields_mask {fields : Record} (h : IsRaw outline (.record fields)) (path : String) :
    shapedFields layout.masked path (mask fields) = mask (shapedFields layout path fields) :=
  shapedFields_mask_of_forall fun _ hfield => shaped_mask (h.field hfield) _

/-! ## Growth -/

theorem newItem_mask (hfilled : layout.FilledDefaults) {value : Value} (h : IsRaw outline value)
    (path : String) : newItem layout.masked path value.mask = (newItem layout path value).mask := by
  rw [newItem, newItem, fillValue_mask h, shaped_mask (isRaw_fillValue_of_filled hfilled h path)]

theorem continues_mask {raw : Record} (h : IsRaw outline (.record raw)) (path : String) :
    continues layout.masked path (mask raw) = continues layout path raw := by
  rw [continues, continues, Layout.mergesBelow_masked, mask, List.all_map]
  congr 1
  rw [Bool.eq_iff_iff, List.all_eq_true, List.all_eq_true]
  refine forall₂_congr fun field hfield => ?_
  rw [Function.comp_apply, Layout.isList_masked, isEmpty_mask (h.field hfield)]

theorem growFields_mask_of_slots {path : String} : ∀ {previous raw : Record},
    (∀ field ∈ raw, ∀ path slot, growField layout.masked path slot.mask field.2.mask =
      (growField layout path slot field.2).mask) →
    growFields layout.masked path (mask previous) (mask raw) =
      mask (growFields layout path previous raw)
  | _, [], _ => by rw [mask_nil, growFields_nil, growFields_nil]
  | [], field :: rest, _ => by rw [mask_cons, mask_nil, growFields, growFields, mask_nil]
  | (name, slot) :: more, field :: rest, h => by
    obtain ⟨hfield, hrest⟩ := List.forall_mem_cons.mp h
    rw [mask_cons, mask_cons, growFields_cons, growFields_cons, hfield,
      growFields_mask_of_slots hrest, mask_cons]

theorem growField_mask_of_growSlot {value : Value} (h : IsRaw outline value)
    (hgrow : ∀ path slot, growSlot layout.masked path slot.mask value.mask =
      (growSlot layout path slot value).mask) (path : String) (slot : Value) :
    growField layout.masked path slot.mask value.mask =
      (growField layout path slot value).mask := by
  rw [growField, growField, Layout.isList_masked, isEmpty_mask h]
  split
  · exact hgrow path slot
  · rfl

/-- A list grows by a masked value as it does by the value itself. -/
theorem growSlot_mask (hfilled : layout.FilledDefaults) {value : Value} (h : IsRaw outline value) :
    ∀ path slot, growSlot layout.masked path slot.mask value.mask =
      (growSlot layout path slot value).mask := by
  induction h with
  | cell hleaf hcell =>
    intro path slot
    rw [growSlot_of_isCell hcell, growSlot_of_isCell (Value.isCell_mask hcell),
      newItem_mask hfilled (.cell hleaf hcell), Value.addItem_mask]
  | @record outline fields hbranch hnames hfields ih =>
    intro path slot
    have hraw := IsRaw.record hbranch hnames hfields
    have hcontinues := @continues_mask layout _ _ hraw path
    have hitem := newItem_mask hfilled hraw path
    rw [Value.mask_record] at hitem ⊢
    cases hyes : continues layout path fields with
    | false =>
      rw [growSlot_of_not_continues hyes, growSlot_of_not_continues (hcontinues.trans hyes), hitem,
        Value.addItem_mask]
    | true =>
      by_cases hlast : ∃ last, slot.lastItem? = some (.record last)
      · obtain ⟨last, hlast⟩ := hlast
        have hmasked : slot.mask.lastItem? = some (.record (mask last)) := by
          rw [Value.lastItem?_mask, hlast, Option.map_some, Value.mask_record]
        rw [growSlot_of_continues hlast hyes, growSlot_of_continues hmasked (hcontinues.trans hyes),
          growFields_mask_of_slots fun field hfield =>
            growField_mask_of_growSlot (hfields field hfield) (ih field hfield),
          ← Value.mask_record, Value.replaceLast_mask]
      · have hnone : ∀ last, slot.lastItem? ≠ some (.record last) :=
          fun last h => hlast ⟨last, h⟩
        have hmasked : ∀ last, slot.mask.lastItem? ≠ some (.record last) := by
          intro last h
          rw [Value.lastItem?_mask, Option.map_eq_some_iff] at h
          obtain ⟨item, hitem, hrecord⟩ := h
          obtain ⟨inner, rfl, -⟩ := Value.eq_record_of_mask hrecord
          exact hnone inner hitem
        rw [growSlot_of_no_lastItem hnone, growSlot_of_no_lastItem hmasked, hitem,
          Value.addItem_mask]

theorem growFields_mask (hfilled : layout.FilledDefaults) {raw : Record}
    (h : IsRaw outline (.record raw)) (path : String) (previous : Record) :
    growFields layout.masked path (mask previous) (mask raw) =
      mask (growFields layout path previous raw) :=
  growFields_mask_of_slots fun _ hfield =>
    growField_mask_of_growSlot (h.field hfield) (growSlot_mask hfilled (h.field hfield))

end Record

namespace CompiledSheet

open Value (IsRaw)

variable {layout : Layout} {outline : Outline}

/-! ## The row loop -/

/-- A masked row is taken in by masked records as the row itself is by the records. -/
theorem takeIn_mask (hfilled : layout.FilledDefaults) {raw : Record}
    (h : IsRaw outline (.record raw)) (records : List Record) :
    takeIn layout.masked (records.map Record.mask) raw.mask =
      (takeIn layout records raw).map Record.mask := by
  have hnew : newRecord layout.masked raw.mask = (newRecord layout raw).mask := by
    have hfill := Record.isRaw_fillValue_of_filled hfilled h ""
    rw [newRecord, newRecord, Record.fill_mask h, Record.shapedFields_mask hfill]
  cases hempty : Value.fieldsEmpty raw with
  | true =>
    have hmasked := (Record.fieldsEmpty_mask h).trans hempty
    rw [takeIn_of_fieldsEmpty hempty, takeIn_of_fieldsEmpty hmasked]
  | false =>
    have hmasked := (Record.fieldsEmpty_mask h).trans hempty
    cases records with
    | nil => rw [List.map_nil, takeIn_nil hempty, takeIn_nil hmasked, hnew, List.map_singleton]
    | cons previous earlier =>
      rw [List.map_cons, takeIn_cons hempty, takeIn_cons hmasked, Record.continues_mask h,
        Record.growFields_mask hfilled h, hnew]
      split
      · rw [List.map_cons]
      · rw [List.map_cons, List.map_cons]

theorem foldl_takeIn_mask (hfilled : layout.FilledDefaults) {raws : List Record}
    (h : ∀ raw ∈ raws, IsRaw outline (.record raw)) (records : List Record) :
    (raws.map Record.mask).foldl (takeIn layout.masked) (records.map Record.mask) =
      (raws.foldl (takeIn layout) records).map Record.mask := by
  induction raws generalizing records with
  | nil => rfl
  | cons raw raws ih =>
    obtain ⟨hraw, hrest⟩ := List.forall_mem_cons.mp h
    rw [List.map_cons, List.foldl_cons, List.foldl_cons, takeIn_mask hfilled hraw, ih hrest]

/-- The compiled worksheet with masked records. -/
def masked (compiled : CompiledSheet) : CompiledSheet :=
  { compiled with records := compiled.records.map Record.mask }

theorem rawRows_masked (sheet : Worksheet) (columns : List Column) (rows : List Nat) :
    rawRows sheet.masked columns rows =
      (rawRows sheet columns rows).map (List.map Record.mask) := by
  induction rows with
  | nil => rfl
  | cons row rows ih =>
    rw [rawRows_cons, rawRows_cons, Record.ofRow_masked, ih]
    cases Record.ofRow sheet columns row with
    | error fault => rfl
    | ok raw => cases rawRows sheet columns rows <;> rfl

/-- The masked records of a worksheet are made from its masked rows. -/
theorem masked_ofWorksheet {rules : Rules} {sheet : Worksheet} {schema : Schema}
    (h : Schema.ofSheet rules sheet = .ok schema) :
    (ofWorksheet rules sheet).map masked =
      (rawRows sheet.masked schema.columns (dataRows schema)).map fun raws =>
        ⟨sheet.name, schema.types,
          (raws.foldl (takeIn (Layout.mk schema rules.settings).masked) []).reverse,
          schema.metadata⟩ := by
  have hfilled : (Layout.mk schema rules.settings).FilledDefaults :=
    fun path text hfallback => ((Schema.lawful_ofSheet h).fallbacks path text hfallback).1
  rw [ofWorksheet_eq h, rawRows_masked]
  cases hraws : rawRows sheet schema.columns (dataRows schema) with
  | error fault => rfl
  | ok raws =>
    have hfold := foldl_takeIn_mask hfilled (isRaw_of_rawRows hraws) []
    rw [List.map_nil] at hfold
    simp only [Except.map, masked, hfold, List.map_reverse]

/-- Worksheets with the same header and the same blank data cells compile to the same but for the
texts in the records, or fail for the same reason. -/
theorem masked_ofWorksheet_eq_of_sameBlanks {rules : Rules} {sheet other : Worksheet}
    (h : rules.SameBlanks sheet other) :
    (ofWorksheet rules sheet).map masked = (ofWorksheet rules other).map masked := by
  cases hschema : Schema.ofSheet rules sheet with
  | error fault =>
    rw [ofWorksheet, ofWorksheet, ← h.ofSheet_eq, hschema]
    rfl
  | ok schema =>
    have hother : Schema.ofSheet rules other = .ok schema := by rw [← h.ofSheet_eq, hschema]
    have hrows : ∀ row ∈ dataRows schema, Record.ofRow sheet.masked schema.columns row =
        Record.ofRow other.masked schema.columns row := by
      intro row hrow
      refine Record.ofRow_congr h.name fun column hcolumn => ?_
      rw [Worksheet.cellText_masked, Worksheet.cellText_masked,
        Worksheet.map_maskCell_congr (h.data schema hschema row hrow column hcolumn)]
    rw [masked_ofWorksheet hschema, masked_ofWorksheet hother, h.name, rawRows_congr hrows]

/-- The inventory with other texts: markers, keywords, type tags and the default of grades. -/
def otherInventory : Grid where
  name := "Inventory"
  rows := inventory.rows.take 5 ++ [
    ["", "#var", "C", "#default", ""],
    ["#var", "", "", "list", ""],
    ["", "\t", "type", "", " "],
    [],
    ["", "C", "", "", ""]]

/-- Both inventories have their blank cells in the same places, and so their records differ in
nothing but texts. -/
theorem inventory_masked_eq : ∃ rules compiled other,
    Rules.ofSettings {} = .ok rules ∧
    rules.SameBlanks inventory.worksheet otherInventory.worksheet ∧
    ofWorksheet rules inventory.worksheet = .ok compiled ∧
    ofWorksheet rules otherInventory.worksheet = .ok other ∧
    compiled.records ≠ other.records ∧ compiled.masked = other.masked := by
  have hsome : ((Rules.ofSettings {}).toOption.bind fun rules =>
      (Schema.ofSheet rules inventory.worksheet).toOption.bind fun schema =>
        (ofWorksheet rules inventory.worksheet).toOption.bind fun compiled =>
          (ofWorksheet rules otherInventory.worksheet).toOption.map fun other =>
            (rules.clip inventory.extent,
              rules.headerHeight inventory.worksheet inventory.extent, dataRows schema,
              schema.columns.map Column.index,
              decide (rules.clip inventory.extent = rules.clip otherInventory.extent ∧
                rules.marks inventory.worksheet 6 = rules.marks otherInventory.worksheet 6 ∧
                compiled.records ≠ other.records))) =
      some (⟨10, 5⟩, 5, List.range' 6 5, List.range' 2 4, true) := by
    decide +kernel
  obtain ⟨rules, hrules, hsome⟩ := Option.bind_eq_some_iff.mp hsome
  obtain ⟨schema, hschema, hsome⟩ := Option.bind_eq_some_iff.mp hsome
  obtain ⟨compiled, hcompiled, hsome⟩ := Option.bind_eq_some_iff.mp hsome
  obtain ⟨other, hother, hfacts⟩ := Option.map_eq_some_iff.mp hsome
  simp only [Prod.mk.injEq, decide_eq_true_eq] at hfacts
  obtain ⟨hclip, hheight, hrows, hcolumns, hsame, hmarks, hne⟩ := hfacts
  have hwidth : max Worksheet.markerColumn (rules.clip inventory.extent).columns = 5 := by
    rw [hclip]
    rfl
  have hblanks : rules.SameBlanks inventory.worksheet otherInventory.worksheet := by
    refine ⟨sameHeader_grid rfl hsame hheight hwidth (by decide +kernel) hmarks, ?_⟩
    intro found hfound row hrow column hcolumn
    rw [eq_ok_of_toOption hschema, Except.ok.injEq] at hfound
    subst hfound
    have hindex : column.index ∈ schema.columns.map Column.index := List.mem_map_of_mem hcolumn
    rw [hcolumns] at hindex
    rw [hrows] at hrow
    have hcells : ∀ row ∈ List.range' 6 5, ∀ column ∈ List.range' 2 4,
        (inventory.worksheet.cellText row column).map Text.isBlankCell =
          (otherInventory.worksheet.cellText row column).map Text.isBlankCell := by
      decide +kernel
    exact hcells row hrow column.index hindex
  have hcompiled := eq_ok_of_toOption hcompiled
  have hother := eq_ok_of_toOption hother
  have hmasked := masked_ofWorksheet_eq_of_sameBlanks hblanks
  rw [hcompiled, hother] at hmasked
  exact ⟨rules, compiled, other, eq_ok_of_toOption hrules, hblanks, hcompiled, hother, hne,
    Except.ok.inj hmasked⟩

end CompiledSheet

end SheetCompiler
