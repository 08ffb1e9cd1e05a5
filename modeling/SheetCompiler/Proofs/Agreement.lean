import SheetCompiler.Proofs.RowLoop

/-!
# What the row loop asks of a header

The row loop asks a layout which fields are lists, which text a blank field takes and how deep
records are merged, and nothing else.  Two layouts that give the same answers (`Layout.Agrees`) take
raw rows in to the same records (`foldl_takeIn_agrees`).  So the last row that a header looks at,
for one, does not matter to the records.
-/

namespace SheetCompiler

/-- Two layouts give the same answers. -/
structure Layout.Agrees (layout other : Layout) : Prop where
  lists : ∀ path, layout.isList path = other.isList path
  defaults : ∀ path, layout.fallback? path = other.fallback? path
  depth : ∀ path, layout.mergesBelow path = other.mergesBelow path

theorem Layout.Agrees.trans {layout middle other : Layout} (h : layout.Agrees middle)
    (hmiddle : middle.Agrees other) : layout.Agrees other where
  lists path := (h.lists path).trans (hmiddle.lists path)
  defaults path := (h.defaults path).trans (hmiddle.defaults path)
  depth path := (h.depth path).trans (hmiddle.depth path)

/-- Which fields are lists is told by the tags of the schema. -/
theorem Layout.isList_of_types {schema otherSchema : Schema} {path : String} (settings : Settings)
    (h : Entries.get? path schema.types = Entries.get? path otherSchema.types) :
    (Layout.mk schema settings).isList path = (Layout.mk otherSchema settings).isList path := by
  rw [isList, isList, type?, type?, h]

/-- Schemas with the same tag and the same default at each path lay records out alike. -/
theorem Layout.agrees_of_get? {schema otherSchema : Schema} (settings : Settings)
    (htypes : ∀ path, Entries.get? path schema.types = Entries.get? path otherSchema.types)
    (hfallbacks : ∀ path,
      Entries.get? path schema.fallbacks = Entries.get? path otherSchema.fallbacks) :
    (Layout.mk schema settings).Agrees ⟨otherSchema, settings⟩ where
  lists path := isList_of_types settings (htypes path)
  defaults := hfallbacks
  depth _ := rfl

namespace Record

open Value (IsRaw)

variable {layout other : Layout} {outline : Outline}

theorem fillField_agrees (h : layout.Agrees other) {value : Value} (hraw : IsRaw outline value) :
    ∀ path, fillField layout path value = fillField other path value := by
  induction hraw with
  | cell hleaf hcell =>
    intro path
    rw [fillField_of_isCell hcell, fillField_of_isCell hcell, h.defaults]
  | @record _ fields hbranch hnames hfields ih =>
    intro path
    have hfill : fill layout path fields = fill other path fields := by
      rw [fill_eq_map, fill_eq_map]
      exact List.map_congr_left fun field hfield => by rw [ih field hfield]
    rw [fillField, fillField, h.defaults, hfill]

theorem fill_agrees (h : layout.Agrees other) {fields : Record}
    (hraw : IsRaw outline (.record fields)) (path : String) :
    fill layout path fields = fill other path fields := by
  rw [fill_eq_map, fill_eq_map]
  exact List.map_congr_left fun field hfield => by rw [fillField_agrees h (hraw.field hfield)]

theorem shaped_agrees (h : layout.Agrees other) (value : Value) :
    ∀ path, shaped layout path value = shaped other path value := by
  induction value using Value.treeInduction with
  | null => intro path; rw [shaped, shaped]
  | scalar text => intro path; rw [shaped, shaped]
  | list items => intro path; rw [shaped, shaped]
  | record fields ih =>
    intro path
    rw [shaped, shaped, shapedFields_eq_map, shapedFields_eq_map]
    congr 2
    refine List.map_congr_left fun field hfield => ?_
    rw [ih field hfield, wrapAt, wrapAt, h.lists]

theorem shapedFields_agrees (h : layout.Agrees other) (path : String) (fields : Record) :
    shapedFields layout path fields = shapedFields other path fields := by
  rw [shapedFields_eq_map, shapedFields_eq_map]
  refine List.map_congr_left fun field _ => ?_
  rw [shaped_agrees h, wrapAt, wrapAt, h.lists]

theorem newItem_agrees (h : layout.Agrees other) {value : Value} (hraw : IsRaw outline value)
    (path : String) : newItem layout path value = newItem other path value := by
  have hfill : fillValue layout path value = fillValue other path value := by
    cases value with
    | record fields => rw [fillValue, fillValue, fill_agrees h hraw]
    | null => exact fillField_agrees h hraw path
    | scalar text => exact fillField_agrees h hraw path
    | list items => exact fillField_agrees h hraw path
  rw [newItem, newItem, hfill, shaped_agrees h]

theorem continues_agrees (h : layout.Agrees other) (path : String) (raw : Record) :
    continues layout path raw = continues other path raw := by
  rw [continues, continues, h.depth]
  simp only [h.lists]

theorem growFields_agrees_of_slots (h : layout.Agrees other) (path : String) {raw : Record}
    (hslots : ∀ field ∈ raw, ∀ path slot,
      growSlot layout path slot field.2 = growSlot other path slot field.2) :
    ∀ previous, growFields layout path previous raw = growFields other path previous raw := by
  induction raw with
  | nil =>
    intro previous
    rw [growFields_nil, growFields_nil]
  | cons field rest ih =>
    intro previous
    cases previous with
    | nil => rw [growFields, growFields]
    | cons slot more =>
      obtain ⟨hfield, hrest⟩ := List.forall_mem_cons.mp hslots
      rw [growFields_cons, growFields_cons, ih hrest, growField, growField, h.lists, hfield]

theorem growSlot_agrees (h : layout.Agrees other) {value : Value} (hraw : IsRaw outline value) :
    ∀ path slot, growSlot layout path slot value = growSlot other path slot value := by
  induction hraw with
  | cell hleaf hcell =>
    intro path slot
    rw [growSlot_of_isCell hcell, growSlot_of_isCell hcell, newItem_agrees h (.cell hleaf hcell)]
  | @record outline fields hbranch hnames hfields ih =>
    intro path slot
    have hitem := newItem_agrees h (IsRaw.record hbranch hnames hfields) path
    have hcontinues := continues_agrees h path fields
    rcases growSlot_cases layout path slot (.record fields) with
      ⟨last, same, hlast, hsame, hsameContinues, hgrown⟩ | ⟨hno, hgrown⟩
    · obtain rfl := Value.record.inj hsame
      rw [hgrown, growFields_agrees_of_slots h path ih last,
        growSlot_of_continues hlast (hcontinues ▸ hsameContinues)]
    · rw [hgrown, hitem]
      rcases growSlot_cases other path slot (.record fields) with
        ⟨last, same, hlast, hsame, hsameContinues, -⟩ | ⟨-, hother⟩
      · obtain rfl := Value.record.inj hsame
        rw [← hcontinues, hno last fields hlast rfl] at hsameContinues
        cases hsameContinues
      · rw [hother]

theorem growFields_agrees (h : layout.Agrees other) {raw : Record}
    (hraw : IsRaw outline (.record raw)) (path : String) (previous : Record) :
    growFields layout path previous raw = growFields other path previous raw :=
  growFields_agrees_of_slots h path (fun _ hfield => growSlot_agrees h (hraw.field hfield)) previous

end Record

namespace CompiledSheet

open Value (IsRaw)

variable {layout other : Layout} {outline : Outline}

theorem takeIn_agrees (h : layout.Agrees other) {raw : Record}
    (hraw : IsRaw outline (.record raw)) (records : List Record) :
    takeIn layout records raw = takeIn other records raw := by
  have hnew : newRecord layout raw = newRecord other raw := by
    rw [newRecord, newRecord, Record.fill_agrees h hraw, Record.shapedFields_agrees h]
  cases hfilled : Value.fieldsEmpty raw with
  | true => rw [takeIn_of_fieldsEmpty hfilled, takeIn_of_fieldsEmpty hfilled]
  | false =>
    cases records with
    | nil => rw [takeIn_nil hfilled, takeIn_nil hfilled, hnew]
    | cons previous earlier =>
      rw [takeIn_cons hfilled, takeIn_cons hfilled, Record.continues_agrees h,
        Record.growFields_agrees h hraw, hnew]

/-- Layouts that agree make the same records of the same rows. -/
theorem foldl_takeIn_agrees (h : layout.Agrees other) {raws : List Record}
    (hraws : ∀ raw ∈ raws, IsRaw outline (.record raw)) (records : List Record) :
    raws.foldl (takeIn layout) records = raws.foldl (takeIn other) records := by
  induction raws generalizing records with
  | nil => rfl
  | cons raw raws ih =>
    obtain ⟨hraw, hrest⟩ := List.forall_mem_cons.mp hraws
    rw [List.foldl_cons, List.foldl_cons, takeIn_agrees h hraw, ih hrest]

end CompiledSheet

end SheetCompiler
