import SheetCompiler.Proofs.RowLoop

/-!
# The order of cells

The cells of a column are found again in the records: the path of the column leads to them, through
records by name and through lists item by item, in the order of the rows.  Nothing is lost or found
twice.  The one thing that may be found besides is the default of the path, in any place where the
cell of a row was blank.

A row adds what it holds at the end of what the path finds, whichever way it goes in: as a record,
as a further item at any depth, or below the last item of a list (`found_growSlot`).  This is what
carries the fold over all rows (`found_foldl`).
-/

namespace SheetCompiler

/-- A list with copies of one entry put in anywhere. -/
inductive Padded {α : Type} (pad : Option α) : List α → List α → Prop
  | nil : Padded pad [] []
  | keep (entry : α) {short long : List α} (h : Padded pad short long) :
      Padded pad (entry :: short) (entry :: long)
  | put {entry : α} (hpad : pad = some entry) {short long : List α} (h : Padded pad short long) :
      Padded pad short (entry :: long)

namespace Padded

variable {α : Type} {pad : Option α}

theorem refl (entries : List α) : Padded pad entries entries := by
  induction entries with
  | nil => exact .nil
  | cons entry rest ih => exact .keep entry ih

theorem append {short long more longer : List α} (h : Padded pad short long)
    (hmore : Padded pad more longer) : Padded pad (short ++ more) (long ++ longer) := by
  induction h with
  | nil => exact hmore
  | keep entry _ ih => exact .keep entry ih
  | put hpad _ ih => exact .put hpad ih

/-- Without an entry to put in, nothing is put in. -/
theorem eq_of_none {short long : List α} (h : Padded none short long) : long = short := by
  induction h with
  | nil => rfl
  | keep entry _ ih => rw [ih]
  | put hpad _ _ => cases hpad

end Padded

namespace Value

/-- What a value holds below a list of names, without what is nothing. -/
def found (names : List String) (value : Value) : List Value :=
  (descend names value).filter fun value => !value.isNull

theorem found_null (names : List String) : found names .null = [] := by
  cases names with
  | nil => rw [found, descend]; rfl
  | cons name rest => rw [found, descend]; rfl

theorem found_nil_scalar (text : String) : found [] (.scalar text) = [.scalar text] := by
  rw [found, descend]
  rfl

theorem found_record_cons (name : String) (rest : List String) (fields : Record) :
    found (name :: rest) (.record fields) =
      ((Entries.get? name fields).map (found rest)).getD [] := by
  rw [found, Record.descend_record_cons]
  cases Entries.get? name fields with
  | none => rfl
  | some value => rfl

theorem found_record_of_get? {name : String} {fields : Record} {value : Value}
    (h : Entries.get? name fields = some value) (rest : List String) :
    found (name :: rest) (.record fields) = found rest value := by
  rw [found_record_cons, h, Option.map_some, Option.getD_some]

/-- The items of a list are searched one after another, unless there are lists among them. -/
theorem found_list {items : List Value} (h : ∀ item ∈ items, ∀ inner, item ≠ .list inner)
    (names : List String) : found names (.list items) = items.flatMap (found names) := by
  cases names with
  | cons name rest =>
    rw [found, descend, descendItems_eq_flatMap, List.filter_flatMap]
    rfl
  | nil =>
    rw [found, descend]
    induction items with
    | nil => rfl
    | cons item rest ih =>
      have hself : descend [] item = [item] := by
        rw [descend_nil]
        cases item with
        | list inner => exact absurd rfl (h _ List.mem_cons_self inner)
        | null => rfl
        | scalar text => rfl
        | record fields => rfl
      rw [List.flatMap_cons, ← ih fun other hother => h other (List.mem_cons_of_mem _ hother),
        found, hself, ← List.filter_append]
      rfl

end Value

/-- The default at the end of a path, as a value. -/
def Layout.padding (layout : Layout) (path : String) (names : List String) : Option Value :=
  (layout.fallback? (names.foldl FieldPath.extend path)).map .scalar

namespace Record

open Value (IsRaw found found_null found_nil_scalar found_record_of_get? found_list)
open Layout (FieldFits ItemFits)

variable {layout : Layout} {path : String} {outline : Outline} {names : List String}

/-- The items of a list that fits are searched one after another. -/
theorem found_items {items : List Value} (h : ∀ item ∈ items, layout.ItemFits path outline item) :
    found names (.list items) = items.flatMap (found names) := by
  refine found_list ?_ names
  intro item hitem inner hinner
  have hfits := h item hitem
  rw [hinner] at hfits
  cases hfits

/-! ## Raw values -/

/-- Nothing is found in a raw value in which nothing is filled. -/
theorem found_of_isEmpty {value : Value} (h : IsRaw outline value) (hnames : names ∈ outline)
    (hempty : value.isEmpty = true) : found names value = [] := by
  induction h generalizing names with
  | @cell _ value hleaf hcell =>
    cases value with
    | null => exact found_null names
    | scalar text =>
      rw [Value.isEmpty_scalar, show text.isEmpty = false from hcell] at hempty
      cases hempty
    | record fields => exact hcell.elim
    | list items => exact hcell.elim
  | @record _ fields hbranch hfieldNames hfields ih =>
    obtain ⟨name, rest, rfl⟩ := List.exists_cons_of_ne_nil (hbranch names hnames)
    obtain ⟨value, hget, hmem, hrest⟩ :=
      (IsRaw.record hbranch hfieldNames hfields).exists_get? hnames
    rw [Value.isEmpty_record, Value.fieldsEmpty_iff] at hempty
    rw [found_record_of_get? hget]
    exact ih _ hmem hrest (hempty _ hmem)

theorem found_wrapAt {value : Value} (h : IsRaw outline value) (hnames : names ∈ outline)
    (hshaped : found names (shaped layout path value) = found names value) :
    found names (wrapAt layout path (shaped layout path value)) = found names value := by
  rw [wrapAt_shaped h]
  by_cases hempty : value.isEmpty = true
  · rw [if_pos hempty, found_null, found_of_isEmpty h hnames hempty]
  · rw [if_neg hempty]
    by_cases hlist : layout.isList path = true
    · have hitem : layout.ItemFits path outline (shaped layout path value) :=
        itemFits_shaped h (Bool.not_eq_true _ ▸ hempty)
      rw [if_pos hlist, found_items (List.forall_mem_singleton.mpr hitem), List.flatMap_singleton,
        hshaped]
    · rw [if_neg hlist, hshaped]

/-- Shaping moves nothing. -/
theorem found_shaped {value : Value} (h : IsRaw outline value) (hnames : names ∈ outline) :
    found names (shaped layout path value) = found names value := by
  induction h generalizing path names with
  | @cell _ value hleaf hcell =>
    cases value with
    | null => rw [shaped]
    | scalar text => rw [shaped]
    | record fields => exact hcell.elim
    | list items => exact hcell.elim
  | @record _ fields hbranch hfieldNames hfields ih =>
    have hraw := IsRaw.record hbranch hfieldNames hfields
    by_cases hempty : (Value.record fields).isEmpty = true
    · rw [shaped_of_isEmpty hraw hempty, found_null, found_of_isEmpty hraw hnames hempty]
    · obtain ⟨name, rest, rfl⟩ := List.exists_cons_of_ne_nil (hbranch names hnames)
      obtain ⟨value, hget, hmem, hrest⟩ := hraw.exists_get? hnames
      have hshapedGet : Entries.get? name (shapedFields layout path fields) =
          some (wrapAt layout (FieldPath.extend path name)
            (shaped layout (FieldPath.extend path name) value)) := by
        rw [shapedFields_eq_map, Entries.get?_map, hget, Option.map_some]
      rw [Bool.not_eq_true, Value.isEmpty_record] at hempty
      rw [shaped_record hraw hempty, found_record_of_get? hshapedGet, found_record_of_get? hget]
      exact found_wrapAt (hfields _ hmem) hrest (ih _ hmem hrest)

theorem found_fill_of_forall {fields : Record} (h : IsRaw outline (.record fields))
    (hnames : names ∈ outline)
    (hfields : ∀ name rest, names = name :: rest → ∀ value, (name, value) ∈ fields →
      rest ∈ outline.below name →
      Padded (layout.padding (FieldPath.extend path name) rest) (found rest value)
        (found rest (fillField layout (FieldPath.extend path name) value))) :
    Padded (layout.padding path names) (found names (.record fields))
      (found names (.record (fill layout path fields))) := by
  obtain ⟨name, rest, rfl⟩ := List.exists_cons_of_ne_nil (h.branch names hnames)
  obtain ⟨value, hget, hmem, hrest⟩ := h.exists_get? hnames
  have hfillGet : Entries.get? name (fill layout path fields) =
      some (fillField layout (FieldPath.extend path name) value) := by
    rw [fill_eq_map, Entries.get?_map, hget, Option.map_some]
  rw [found_record_of_get? hget, found_record_of_get? hfillGet]
  exact hfields name rest rfl value hmem hrest

/-- Filling adds the default of the path, and only where there is nothing. -/
theorem found_fillField {value : Value} (h : IsRaw outline value) (hnames : names ∈ outline) :
    Padded (layout.padding path names) (found names value)
      (found names (fillField layout path value)) := by
  induction h generalizing path names with
  | @cell _ value hleaf hcell =>
    obtain rfl := hleaf names hnames
    rw [fillField_of_isCell hcell, Layout.padding, List.foldl_nil]
    cases hfallback : layout.fallback? path with
    | none => exact .refl _
    | some text =>
      show Padded (some (Value.scalar text)) _ (found [] (Value.fillLeaf text value))
      cases value with
      | null =>
        rw [Value.fillLeaf_null, found_null, found_nil_scalar]
        exact .put rfl .nil
      | scalar old =>
        have hold : old.isEmpty = false := hcell
        simp only [Value.fillLeaf, hold, Bool.false_eq_true, if_false]
        exact .refl _
      | record fields => exact hcell.elim
      | list items => exact hcell.elim
  | @record _ fields hbranch hfieldNames hfields ih =>
    rw [fillField]
    split
    · exact .refl _
    · refine found_fill_of_forall (.record hbranch hfieldNames hfields) hnames ?_
      intro name rest _ value hmem hrest
      exact ih (name, value) hmem hrest

theorem found_fill {fields : Record} (h : IsRaw outline (.record fields))
    (hnames : names ∈ outline) :
    Padded (layout.padding path names) (found names (.record fields))
      (found names (.record (fill layout path fields))) := by
  refine found_fill_of_forall h hnames ?_
  intro name rest _ value hmem hrest
  exact found_fillField (h.field hmem) hrest

theorem found_fillValue {value : Value} (h : IsRaw outline value) (hnames : names ∈ outline) :
    Padded (layout.padding path names) (found names value)
      (found names (fillValue layout path value)) := by
  cases value with
  | record fields => exact found_fill h hnames
  | null => exact found_fillField h hnames
  | scalar text => exact found_fillField h hnames
  | list items => exact found_fillField h hnames

/-- A new item holds what its row holds, and defaults. -/
theorem found_newItem {value : Value} (hd : layout.Declares path outline) (h : IsRaw outline value)
    (hnames : names ∈ outline) :
    Padded (layout.padding path names) (found names value)
      (found names (newItem layout path value)) := by
  rw [newItem, found_shaped (isRaw_fillValue hd h) hnames]
  exact found_fillValue h hnames

/-! ## Grown lists and records -/

theorem found_addItem {slot item : Value} (hlist : layout.isList path = true)
    (hslot : layout.FieldFits path outline slot) (hitem : layout.ItemFits path outline item) :
    found names (Value.addItem item slot) = found names slot ++ found names item := by
  rcases hslot.items hlist with rfl | ⟨items, rfl, -, hitems⟩
  · rw [Value.addItem, found_items (List.forall_mem_singleton.mpr hitem), List.flatMap_singleton,
      found_null, List.nil_append]
  · have hall : ∀ other ∈ items ++ [item], layout.ItemFits path outline other := by
      rw [List.forall_mem_append]
      exact ⟨hitems, List.forall_mem_singleton.mpr hitem⟩
    rw [Value.addItem, found_items hall, found_items hitems, List.flatMap_append,
      List.flatMap_singleton]

theorem found_replaceLast {slot last item : Value} (hlist : layout.isList path = true)
    (hslot : layout.FieldFits path outline slot) (hlast : slot.lastItem? = some last)
    (hitem : layout.ItemFits path outline item) :
    ∃ front, found names slot = front ++ found names last ∧
      found names (Value.replaceLast item slot) = front ++ found names item := by
  obtain ⟨items, rfl, hreplace⟩ := eq_list_of_lastItem hlast
  have hitems : ∀ other ∈ items ++ [last], layout.ItemFits path outline other := by
    rcases hslot.items hlist with hnull | ⟨others, hothers, -, hfits⟩
    · cases hnull
    · obtain rfl := Value.list.inj hothers
      exact hfits
  have hgrown : ∀ other ∈ items ++ [item], layout.ItemFits path outline other := by
    rw [List.forall_mem_append] at hitems ⊢
    exact ⟨hitems.1, List.forall_mem_singleton.mpr hitem⟩
  refine ⟨items.flatMap (found names), ?_, ?_⟩
  · rw [found_items hitems, List.flatMap_append, List.flatMap_singleton]
  · rw [hreplace, found_items hgrown, List.flatMap_append, List.flatMap_singleton]

/-- What a grown record holds, if each list that takes something in gets it at its end.  Every
filled field has to be a list here: what stands anywhere else is not taken in. -/
theorem found_growFields_of_slots {raw previous : Record} (h : IsRaw outline (.record raw))
    (hprevious : layout.ItemFits path outline (.record previous))
    (hcontinues : continues layout path raw = true) (hnames : names ∈ outline)
    (hslots : ∀ name rest, names = name :: rest → ∀ value, (name, value) ∈ raw →
      rest ∈ outline.below name → layout.isList (FieldPath.extend path name) = true →
      value.isEmpty = false → ∀ slot : Value,
        layout.FieldFits (FieldPath.extend path name) (outline.below name) slot →
        ∃ tail, found rest (growSlot layout (FieldPath.extend path name) slot value) =
            found rest slot ++ tail ∧
          Padded (layout.padding (FieldPath.extend path name) rest) (found rest value) tail) :
    ∃ tail, found names (.record (growFields layout path previous raw)) =
        found names (.record previous) ++ tail ∧
      Padded (layout.padding path names) (found names (.record raw)) tail := by
  obtain ⟨name, rest, rfl⟩ := List.exists_cons_of_ne_nil (h.branch names hnames)
  obtain ⟨value, hget, hmem, hrest⟩ := h.exists_get? hnames
  have hsameNames : Entries.names previous = Entries.names raw := by
    rw [hprevious.names_eq, h.names_eq]
  obtain ⟨slot, hslot⟩ :=
    Entries.exists_get? (hsameNames ▸ Entries.mem_names_of_mem hmem : name ∈ Entries.names previous)
  have hgrownGet : Entries.get? name (growFields layout path previous raw) =
      some (growField layout (FieldPath.extend path name) slot value) := by
    rw [growFields_eq_map hsameNames h.nodup, Entries.get?_map, hslot, Option.map_some, hget,
      Option.getD_some]
  rw [found_record_of_get? hgrownGet, found_record_of_get? hslot, found_record_of_get? hget]
  by_cases hempty : value.isEmpty = true
  · refine ⟨[], by rw [growField_of_isEmpty hempty, List.append_nil], ?_⟩
    rw [found_of_isEmpty (h.field hmem) hrest hempty]
    exact .nil
  · rw [continues, Bool.and_eq_true, List.all_eq_true] at hcontinues
    have hlist := hcontinues.2 _ hmem
    rw [Bool.or_eq_true, or_iff_left hempty] at hlist
    rw [Bool.not_eq_true] at hempty
    rw [growField_of_isList hlist hempty]
    exact hslots name rest rfl value hmem hrest hlist hempty slot
      (hprevious.field (Entries.mem_of_get? hslot))

/-- A list that takes in a raw value gets what the value holds at its end. -/
theorem found_growSlot {raw : Value} (h : IsRaw outline raw) (hd : layout.Declares path outline)
    (hlist : layout.isList path = true) (hfilled : raw.isEmpty = false) {slot : Value}
    (hslot : layout.FieldFits path outline slot) (hnames : names ∈ outline) :
    ∃ tail, found names (growSlot layout path slot raw) = found names slot ++ tail ∧
      Padded (layout.padding path names) (found names raw) tail := by
  induction h generalizing path names slot with
  | @cell _ raw hleaf hcell =>
    have hraw := IsRaw.cell hleaf hcell
    rw [growSlot_of_isCell hcell, found_addItem hlist hslot (itemFits_newItem hd hraw hfilled)]
    exact ⟨_, rfl, found_newItem hd hraw hnames⟩
  | @record outline fields hbranch hfieldNames hfields ih =>
    have hraw := IsRaw.record hbranch hfieldNames hfields
    rcases growSlot_cases layout path slot (.record fields) with
      ⟨last, same, hlast, hsame, hcontinues, hgrown⟩ | ⟨-, hgrown⟩
    · obtain rfl := Value.record.inj hsame
      have hlastFits := hslot.of_lastItem hlist hlast
      have hgrownFits := itemFits_growFields hd hraw hlastFits
      obtain ⟨front, hbefore, hafter⟩ :=
        @found_replaceLast _ _ _ names _ _ _ hlist hslot hlast hgrownFits
      obtain ⟨tail, htail, hpadded⟩ :
          ∃ tail, found names (.record (growFields layout path last fields)) =
              found names (.record last) ++ tail ∧
            Padded (layout.padding path names) (found names (.record fields)) tail := by
        refine found_growFields_of_slots hraw hlastFits hcontinues hnames ?_
        intro name rest _ value hmem hrest hlist hfilled slot hslot
        exact ih (name, value) hmem (hd.below name) hlist hfilled hslot hrest
      refine ⟨tail, ?_, hpadded⟩
      rw [hgrown, hafter, htail, hbefore, List.append_assoc]
    · rw [hgrown, found_addItem hlist hslot (itemFits_newItem hd hraw hfilled)]
      exact ⟨_, rfl, found_newItem hd hraw hnames⟩

/-- A record that is continued by a raw row gets what the row holds at its end. -/
theorem found_growFields {raw previous : Record} (hd : layout.Declares path outline)
    (h : IsRaw outline (.record raw)) (hprevious : layout.ItemFits path outline (.record previous))
    (hcontinues : continues layout path raw = true) (hnames : names ∈ outline) :
    ∃ tail, found names (.record (growFields layout path previous raw)) =
        found names (.record previous) ++ tail ∧
      Padded (layout.padding path names) (found names (.record raw)) tail := by
  refine found_growFields_of_slots h hprevious hcontinues hnames ?_
  intro name rest _ value hmem hrest hlist hfilled slot hslot
  exact found_growSlot (h.field hmem) (hd.below name) hlist hfilled hslot hrest

end Record

namespace CompiledSheet

open Value (IsRaw found)
open Record (continues found_of_isEmpty found_newItem found_growFields)

variable {layout : Layout} {sheet : Worksheet} {outline : Outline} {names : List String}

/-! ## The row loop -/

/-- What records hold below a list of names, from the first record to the last. -/
def foundIn (names : List String) (records : List Record) : List Value :=
  records.flatMap fun record => found names (.record record)

theorem foundIn_append_singleton (records : List Record) (record : Record) :
    foundIn names (records ++ [record]) =
      foundIn names records ++ found names (.record record) := by
  rw [foundIn, List.flatMap_append, List.flatMap_singleton, foundIn]

/-- A record holds what its first row holds, and defaults. -/
theorem found_newRecord {raw : Record} (hd : layout.Declares "" outline)
    (h : IsRaw outline (.record raw)) (hfilled : Value.fieldsEmpty raw = false)
    (hnames : names ∈ outline) :
    Padded (layout.padding "" names) (found names (.record raw))
      (found names (.record (newRecord layout raw))) := by
  rw [← newItem_eq_newRecord hd h hfilled]
  exact found_newItem hd h hnames

/-- A row adds what it holds at the end. -/
theorem found_takeIn {raw : Record} (hd : layout.Declares "" outline)
    (h : IsRaw outline (.record raw)) {records : List Record}
    (hrecords : Conforms layout outline records) (hnames : names ∈ outline) :
    ∃ tail, foundIn names (takeIn layout records raw).reverse =
        foundIn names records.reverse ++ tail ∧
      Padded (layout.padding "" names) (found names (.record raw)) tail := by
  cases hfilled : Value.fieldsEmpty raw with
  | true =>
    refine ⟨[], by rw [takeIn_of_fieldsEmpty hfilled, List.append_nil], ?_⟩
    rw [found_of_isEmpty h hnames hfilled]
    exact .nil
  | false =>
    have hnew := found_newRecord hd h hfilled hnames
    cases records with
    | nil =>
      refine ⟨_, ?_, hnew⟩
      rw [takeIn_nil hfilled, List.reverse_singleton, ← List.nil_append [newRecord layout raw],
        foundIn_append_singleton, List.reverse_nil]
    | cons previous earlier =>
      rw [takeIn_cons hfilled]
      by_cases hcontinues : continues layout "" raw = true
      · obtain ⟨tail, htail, hpadded⟩ :=
          found_growFields hd h (hrecords previous List.mem_cons_self) hcontinues hnames
        refine ⟨tail, ?_, hpadded⟩
        rw [if_pos hcontinues, List.reverse_cons, List.reverse_cons, foundIn_append_singleton,
          foundIn_append_singleton, htail, List.append_assoc]
      · refine ⟨_, ?_, hnew⟩
        rw [if_neg hcontinues, List.reverse_cons, foundIn_append_singleton]

/-- The rows add what they hold one after another. -/
theorem found_foldl (hd : layout.Declares "" outline) {raws : List Record}
    (h : ∀ raw ∈ raws, IsRaw outline (.record raw)) {records : List Record}
    (hrecords : Conforms layout outline records) (hnames : names ∈ outline) :
    ∃ tail, foundIn names (raws.foldl (takeIn layout) records).reverse =
        foundIn names records.reverse ++ tail ∧
      Padded (layout.padding "" names) (foundIn names raws) tail := by
  induction raws generalizing records with
  | nil => exact ⟨[], by rw [List.foldl_nil, List.append_nil], .nil⟩
  | cons raw raws ih =>
    obtain ⟨hraw, hraws⟩ := List.forall_mem_cons.mp h
    obtain ⟨added, hadded, hfirst⟩ := found_takeIn hd hraw hrecords hnames
    obtain ⟨tail, htail, hrest⟩ := ih hraws (conforms_takeIn hd hraw hrecords)
    refine ⟨added ++ tail, ?_, hfirst.append hrest⟩
    rw [List.foldl_cons, htail, hadded, List.append_assoc]

/-! ## The cells of a column -/

/-- The texts of the cells of a column that are not blank, from the first row to the last. -/
def filledCells (sheet : Worksheet) (column : Nat) (rows : List Nat) : List String :=
  rows.filterMap fun row =>
    match sheet.cellText row column with
    | .ok (some text) => if Text.isBlankText text then none else some text
    | _ => none

/-- The path of a column leads to its cell, unless the cell is blank. -/
theorem found_ofRow {columns : List Column} {row : Nat} {raw : Record}
    (h : Record.ofRow sheet columns row = .ok raw) {column : Column}
    (hlast : column.LastIn columns) :
    found column.segments (.record raw) =
      (filledCells sheet column.index [row]).map .scalar := by
  obtain ⟨text, hread, hdescend⟩ := Record.descend_ofRow h hlast
  have hcell := Worksheet.cellText_of_read hread
  rw [found, hdescend, filledCells, List.filterMap_cons, hcell, List.filterMap_nil]
  cases text with
  | none => rfl
  | some text =>
    by_cases hblank : Text.isBlankText text = true
    · simp only [Record.ofCell_some, hblank, if_true]
      rfl
    · simp only [Record.ofCell_some, hblank, Bool.false_eq_true, if_false]
      rfl

theorem foundIn_rawRows {columns : List Column} {rows : List Nat} {raws : List Record}
    (h : rawRows sheet columns rows = .ok raws) {column : Column} (hlast : column.LastIn columns) :
    foundIn column.segments raws = (filledCells sheet column.index rows).map .scalar := by
  have hrows := forall₂_rawRows h
  clear h
  induction hrows with
  | nil => rfl
  | @cons row raw rows raws hrow _ ih =>
    have hsplit : filledCells sheet column.index (row :: rows) =
        filledCells sheet column.index [row] ++ filledCells sheet column.index rows := by
      rw [filledCells, ← List.singleton_append, List.filterMap_append, filledCells, filledCells]
    rw [foundIn, List.flatMap_cons, ← foundIn, ih, found_ofRow hrow hlast, hsplit, List.map_append]

/-- The path of a column leads to the filled cells of the column in their order, with copies of its
default in between, and to nothing else. -/
theorem cells_in_order {rules : Rules} {schema : Schema} {compiled : CompiledSheet}
    (h : Schema.ofSheet rules sheet = .ok schema)
    (hcompiled : ofWorksheet rules sheet = .ok compiled) {column : Column}
    (hlast : column.LastIn schema.columns) :
    Padded ((Entries.get? column.path schema.fallbacks).map .scalar)
        ((filledCells sheet column.index (dataRows schema)).map .scalar)
        (foundIn column.segments compiled.records) ∧
      (Entries.get? column.path schema.fallbacks = none →
        foundIn column.segments compiled.records =
          (filledCells sheet column.index (dataRows schema)).map .scalar) := by
  have hd := Layout.declares_of_lawful (Schema.lawful_ofSheet h) rules.settings
  have hnames : column.segments ∈ Outline.ofColumns schema.columns := List.mem_map_of_mem hlast.mem
  obtain ⟨raws, hraws, hcompiledRecords⟩ := ofWorksheet_eq_ok h hcompiled
  obtain ⟨tail, htail, hpadded⟩ := @found_foldl ⟨schema, rules.settings⟩ _ _ hd raws
    (isRaw_of_rawRows hraws) [] (by simp [Conforms]) hnames
  rw [foundIn_rawRows hraws hlast] at hpadded
  have hrecords : foundIn column.segments compiled.records = tail := by
    rw [hcompiledRecords]
    exact htail
  rw [hrecords]
  refine ⟨hpadded, fun hnone => ?_⟩
  have hpadding : Layout.padding ⟨schema, rules.settings⟩ "" column.segments = none := by
    show (Entries.get? column.path schema.fallbacks).map _ = none
    rw [hnone, Option.map_none]
  rw [hpadding] at hpadded
  exact hpadded.eq_of_none

/-- The tags of the inventory are found in the order of their rows. -/
theorem inventory_tags_in_order : ∃ rules schema compiled, ∃ column : Column,
    Schema.ofSheet rules inventory.worksheet = .ok schema ∧
    ofWorksheet rules inventory.worksheet = .ok compiled ∧
    column.LastIn schema.columns ∧ column.segments = ["Items", "Tags"] ∧
    foundIn ["Items", "Tags"] compiled.records = [.scalar "sharp", .scalar "old"] ∧
    Padded ((Entries.get? column.path schema.fallbacks).map .scalar)
      ((filledCells inventory.worksheet column.index (dataRows schema)).map .scalar)
      (foundIn column.segments compiled.records) := by
  obtain ⟨rules, schema, compiled, -, hschema, hcompiled, hcolumns, hrecords⟩ := inventory_compiles
  obtain ⟨tags, htags, hsegments⟩ :
      ∃ column ∈ schema.columns, column.segments = ["Items", "Tags"] := by
    rw [← List.mem_map, hcolumns]
    decide
  obtain ⟨column, hlast, hsame⟩ := Column.exists_lastIn htags
  refine ⟨rules, schema, compiled, column, hschema, hcompiled, hlast, hsame.trans hsegments, ?_,
    (cells_in_order hschema hcompiled hlast).1⟩
  rw [hrecords]
  decide +kernel

end CompiledSheet

end SheetCompiler
