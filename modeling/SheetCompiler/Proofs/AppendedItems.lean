import SheetCompiler.Proofs.Grouping
import SheetCompiler.Proofs.PathAddresses
import SheetCompiler.Proofs.Registration

/-!
# Items of one and the same row

A row that starts a record gives each of its filled lists one item, and a row that continues a
record appends such an item by itself.  The two items are made on two ways.  The first one is filled
and shaped with the whole record, from the top; of the second one only the value at the path of the
list is filled and shaped, from there.

The ways lead to the same item (`Record.freshItem_eq_sole`).  A value is found in a record by the
names that lead to it, and lists on the way have one item each (`Value.soleAt?`).  Filling and
shaping work below each field by itself, so the list that is found in the new record holds just what
filling and shaping make of the value that is found in the row (`Record.soleAt?_shaped_fillField`).
A default further up would stop the first way only; there is none, since no field with further
fields has a default (`Layout.EndDefaults`).
-/

namespace SheetCompiler

namespace Value

/-- The fields of a record, also if it is the only item of a list. -/
def soleFields? : Value → Option Record
  | .record fields => some fields
  | .list [.record fields] => some fields
  | _ => none

/-- What stands below some names, if all lists on the way have a single item. -/
def soleAt? : (names : List String) → Value → Option Value
  | [], value => some value
  | name :: rest, value =>
    (value.soleFields?.bind (Entries.get? name)).bind (soleAt? rest)

@[simp] theorem soleAt?_nil (value : Value) : soleAt? [] value = some value := rfl

theorem soleAt?_cons (name : String) (rest : List String) (value : Value) :
    soleAt? (name :: rest) value =
      (value.soleFields?.bind (Entries.get? name)).bind (soleAt? rest) := rfl

/-- In a raw value a name leads to a field of a record. -/
theorem IsRaw.exists_of_soleAt? {outline : Outline} {value inner : Value}
    (h : IsRaw outline value) {name : String} {rest : List String}
    (hinner : soleAt? (name :: rest) value = some inner) :
    ∃ fields child, value = .record fields ∧ Entries.get? name fields = some child ∧
      soleAt? rest child = some inner := by
  rw [soleAt?_cons, Option.bind_eq_some_iff] at hinner
  obtain ⟨child, hchild, hinner⟩ := hinner
  obtain ⟨fields, hfields, hget⟩ := Option.bind_eq_some_iff.mp hchild
  refine ⟨fields, child, ?_, hget, hinner⟩
  cases h with
  | cell hleaf hcell =>
    cases value with
    | null => cases hfields
    | scalar text => cases hfields
    | record own => exact hcell.elim
    | list items => exact hcell.elim
  | record hbranch hnames hown => rw [Option.some.inj hfields]

/-- A raw value is filled if there is a leaf further down. -/
theorem IsRaw.filled_of_soleAt? {outline : Outline} {value inner : Value}
    (h : IsRaw outline value) {names : List String} (hinner : soleAt? names value = some inner)
    (hleaf : inner.hasLeaf = true) : value.isEmpty = false := by
  induction names generalizing outline value with
  | nil =>
    rw [← Option.some.inj hinner, hasLeaf_eq h] at hleaf
    rwa [Bool.not_eq_true'] at hleaf
  | cons name rest ih =>
    obtain ⟨fields, child, rfl, hget, hrest⟩ := h.exists_of_soleAt? hinner
    have hmem := Entries.mem_of_get? hget
    have hchild := ih (h.field hmem) hrest
    rw [isEmpty_record, ← Bool.not_eq_true, fieldsEmpty_iff]
    intro hempty
    rw [hempty _ hmem] at hchild
    cases hchild

end Value

namespace Record

open Value (IsRaw soleAt? soleAt?_cons soleFields?)

variable {layout : Layout} {path : String} {outline : Outline}

/-- A field in a record that is filled and shaped. -/
theorem get?_shapedFields_fill (layout : Layout) (path name : String) (fields : Record) :
    Entries.get? name (shapedFields layout path (fill layout path fields)) =
      (Entries.get? name fields).map fun value =>
        wrapAt layout (FieldPath.extend path name) (shaped layout (FieldPath.extend path name)
          (fillField layout (FieldPath.extend path name) value)) := by
  rw [shapedFields_eq_map, fill_eq_map, List.map_map]
  exact Entries.get?_map name (fun field => wrapAt layout (FieldPath.extend path field.1)
    (shaped layout (FieldPath.extend path field.1)
      (fillField layout (FieldPath.extend path field.1) field.2))) fields

/-- The fields of a filled raw record are found in its shape, whether it is an item or not. -/
theorem soleFields?_wrapAt_shaped {fields : Record} (h : IsRaw outline (.record fields))
    (hfilled : Value.fieldsEmpty fields = false) :
    (wrapAt layout path (shaped layout path (.record fields))).soleFields? =
      some (shapedFields layout path fields) := by
  rw [shaped_record h hfilled, wrapAt]
  split <;> rfl

/-- What a filled and shaped field holds below some names: in the place of a value of the row there
is a list with the item that this value makes by itself. -/
theorem soleAt?_shaped_fillField {value : Value} (hd : layout.Declares path outline)
    (hends : layout.EndDefaults path outline) (h : IsRaw outline value) (hne : outline ≠ [])
    {names : List String} {inner : Value} (hinner : soleAt? names value = some inner)
    (hleaf : inner.hasLeaf = true)
    (hlist : layout.isList (names.foldl FieldPath.extend path) = true) :
    ∃ item, freshItem layout (names.foldl FieldPath.extend path) inner = .done item ∧
      soleAt? names (wrapAt layout path (shaped layout path (fillField layout path value))) =
        some (.list [item]) := by
  have hfilled := h.filled_of_soleAt? hinner hleaf
  induction names generalizing path outline value with
  | nil =>
    obtain rfl := Option.some.inj hinner
    refine ⟨newItem layout path value, freshItem_of_typed (typed_of_isRaw hd h), ?_⟩
    have hraw := isRaw_fillValue hd h
    have hlist : layout.isList path = true := hlist
    rw [fillField_eq_fillValue hends h hne, wrapAt_shaped hraw, isEmpty_fillValue h hfilled,
      if_neg Bool.false_ne_true, if_pos hlist, Value.soleAt?_nil, newItem]
  | cons name rest ih =>
    obtain ⟨fields, child, rfl, hget, hrest⟩ := h.exists_of_soleAt? hinner
    have hmem := Entries.mem_of_get? hget
    have hchild := h.field hmem
    obtain ⟨item, hitem, hfound⟩ := ih (hd.below name) (hends.below name) hchild
      (h.below_ne_nil hmem) hrest hlist (hchild.filled_of_soleAt? hrest hleaf)
    refine ⟨item, hitem, ?_⟩
    rw [fillField_eq_fillValue hends h hne, fillValue, soleAt?_cons,
      soleFields?_wrapAt_shaped (isRaw_fill hd h) (isEmpty_fillValue h hfilled), Option.bind_some,
      get?_shapedFields_fill, hget, Option.map_some, Option.bind_some, hfound]

/-- The path of no names is not the path of a field. -/
theorem ne_nil_of_isList {rules : Rules} {sheet : Worksheet} {schema : Schema}
    (hschema : Schema.ofSheet rules sheet = .ok schema) {settings : Settings} {names : List String}
    (hlist : (Layout.mk schema settings).isList (FieldPath.ofSegments names) = true) :
    names ≠ [] := by
  rintro rfl
  have htype : "" ∈ Entries.names schema.types := by
    by_contra hnone
    rw [FieldPath.ofSegments_nil, Layout.isList_of_type?_none (Entries.get?_eq_none_iff.mpr hnone)]
      at hlist
    cases hlist
  obtain ⟨column, hcolumn, hpath⟩ := Schema.exists_column_of_mem_types hschema "" htype
  have hsegments := ((Schema.lawful_ofSheet hschema).segments column hcolumn).2
  exact Nat.lt_irrefl _ (FieldPath.length_lt_of_mem_ancestry hsegments hpath)

/-- The item that a row appends to a list is the one that the list has if the row starts a record.
Whatever stands in the row at the path of a list and has a leaf makes such an item. -/
theorem freshItem_eq_sole {rules : Rules} {sheet other : Worksheet} {schema : Schema} {row : Nat}
    {raw : Record} (hschema : Schema.ofSheet rules sheet = .ok schema) (hplain : schema.Plain)
    (hraw : ofRow other schema.columns row = .ok raw) {names : List String} {value : Value}
    (hvalue : soleAt? names (.record raw) = some value) (hleaf : value.hasLeaf = true)
    (hlist : (Layout.mk schema rules.settings).isList (FieldPath.ofSegments names) = true) :
    ∃ item record,
      freshItem ⟨schema, rules.settings⟩ (FieldPath.ofSegments names) value = .done item ∧
      shape ⟨schema, rules.settings⟩ "" (fill ⟨schema, rules.settings⟩ "" raw) = .done record ∧
      soleAt? names (.record record) = some (.list [item]) := by
  have hlawful := Schema.lawful_ofSheet hschema
  have hd := Layout.declares_of_lawful hlawful rules.settings
  have h := isRaw_ofRow hraw
  have hends := Layout.endDefaults_of_plain hlawful hplain h rules.settings
  obtain ⟨name, rest, rfl⟩ := List.exists_cons_of_ne_nil (ne_nil_of_isList hschema hlist)
  have hfilled : Value.fieldsEmpty raw = false := h.filled_of_soleAt? hvalue hleaf
  obtain ⟨fields, child, hfields, hget, -⟩ := h.exists_of_soleAt? hvalue
  obtain rfl := Value.record.inj hfields
  have hne : Outline.ofColumns schema.columns ≠ [] := by
    intro hnil
    have hnames := h.names_eq
    rw [hnil, Outline.names_nil, Entries.names, List.map_eq_nil_iff] at hnames
    rw [hnames] at hget
    cases hget
  obtain ⟨item, hitem, hfound⟩ := soleAt?_shaped_fillField hd hends h hne hvalue hleaf hlist
  -- the record as a whole is shaped as if it were a field without a name
  refine ⟨item, _, hitem, shape_of_typed (typed_of_isRaw hd (isRaw_fill hd h)), ?_⟩
  rwa [fillField_eq_fillValue hends h hne, fillValue, soleAt?_cons,
    soleFields?_wrapAt_shaped (isRaw_fill hd h) (isEmpty_fillValue h hfilled)] at hfound

/-- The sword of the inventory as it is read: its tag is no list yet, and its grade is missing. -/
def rawSword : Value :=
  .record [("Name", .scalar "Sword"), ("Tags", .scalar "sharp"), ("Grade", .null)]

/-- The sword as an item. -/
def sword : Value :=
  .record [("Name", .scalar "Sword"), ("Tags", .list [.scalar "sharp"]), ("Grade", .scalar "C")]

/-- The row of the sword, which starts a record, would append the same item to another one. -/
theorem sword_freshItem_eq_sole : ∃ rules schema raw record,
    Schema.ofSheet rules CompiledSheet.inventory.worksheet = .ok schema ∧ schema.Plain ∧
    ofRow CompiledSheet.inventory.worksheet schema.columns 6 = .ok raw ∧
    soleAt? ["Items"] (.record raw) = some rawSword ∧ rawSword.hasLeaf = true ∧
    (Layout.mk schema rules.settings).isList "Items" = true ∧
    freshItem ⟨schema, rules.settings⟩ "Items" rawSword = .done sword ∧
    shape ⟨schema, rules.settings⟩ "" (fill ⟨schema, rules.settings⟩ "" raw) = .done record ∧
    soleAt? ["Items"] (.record record) = some (.list [sword]) := by
  have hsome : ((Rules.ofSettings {}).toOption.bind fun rules =>
      (Schema.ofSheet rules CompiledSheet.inventory.worksheet).toOption.bind fun schema =>
        (ofRow CompiledSheet.inventory.worksheet schema.columns 6).toOption.map fun raw =>
          (schema.columns.all fun column => column.segments.all fun segment =>
              !segment.toList.contains FieldPath.separator,
            soleAt? ["Items"] (.record raw), (Layout.mk schema rules.settings).isList "Items",
            freshItem ⟨schema, rules.settings⟩ "Items" rawSword)) =
      some (true, some rawSword, true, .done sword) := by
    decide +kernel
  obtain ⟨rules, hrules, hsome⟩ := Option.bind_eq_some_iff.mp hsome
  obtain ⟨schema, hschema, hsome⟩ := Option.bind_eq_some_iff.mp hsome
  obtain ⟨raw, hraw, hfacts⟩ := Option.map_eq_some_iff.mp hsome
  simp only [Prod.mk.injEq] at hfacts
  obtain ⟨hsegments, hvalue, hlist, hitem⟩ := hfacts
  have hplain : schema.Plain := by
    simpa [Schema.Plain] using hsegments
  have hschema := eq_ok_of_toOption hschema
  have hraw := eq_ok_of_toOption hraw
  have hleaf : rawSword.hasLeaf = true := by decide
  obtain ⟨item, record, hsame, hshape, hfound⟩ :=
    freshItem_eq_sole hschema hplain hraw hvalue hleaf hlist
  obtain rfl : sword = item := Progress.done.inj (hitem.symm.trans hsame)
  exact ⟨rules, schema, raw, record, hschema, hplain, hraw, hvalue, hleaf, hlist, hitem, hshape,
    hfound⟩

end Record

end SheetCompiler
