import SheetCompiler.Proofs.LeafDefaults
import SheetCompiler.Proofs.RowLoop

/-!
# Defaults reach every record and every item

Wherever a finished record holds nothing, there is no default to be had: neither at that path nor at
any path below it.  And a field with a default holds a text in every record and in every item of every
list on the way.

A record and an item of a list are filled before they are brought into shape, so a nested record that
would become nothing does not if there is a default in it.  `Layout.Settled` is the invariant that
this gives.  It is stated along the outline of the header: where a value is nothing, no path of the
outline that goes on from there ends at a default.  A shaped filled value is settled
(`Record.settled_newItem`), and what grows stays so (`Record.settled_growFields`), since nothing that
is there ever becomes nothing again.

Segments must have no dots in them.  With dots the default of one field can stand at the path of
another one that has fields of its own, and keep the fields from being filled.
-/

namespace SheetCompiler

namespace Value

/-! ## Where nothing is -/

mutual

/-- The paths at which a value, itself at a given path, holds nothing.  The items of a list stand at
the path of the list. -/
def blankPaths (path : String) : Value → List String
  | .null => [path]
  | .scalar _ => []
  | .record fields => fieldBlankPaths path fields
  | .list items => itemBlankPaths path items

/-- The paths at which the fields below a path hold nothing. -/
def fieldBlankPaths (path : String) : List (String × Value) → List String
  | [] => []
  | (name, value) :: rest =>
    blankPaths (FieldPath.extend path name) value ++ fieldBlankPaths path rest

/-- The paths at which the items of a list hold nothing. -/
def itemBlankPaths (path : String) : List Value → List String
  | [] => []
  | item :: rest => blankPaths path item ++ itemBlankPaths path rest

end

theorem mem_blankPaths_record {path blank : String} {fields : List (String × Value)} :
    blank ∈ blankPaths path (.record fields) ↔
      ∃ field ∈ fields, blank ∈ blankPaths (FieldPath.extend path field.1) field.2 := by
  rw [blankPaths]
  induction fields with
  | nil => simp [fieldBlankPaths]
  | cons field rest ih => simp [fieldBlankPaths, ih]

theorem mem_blankPaths_list {path blank : String} {items : List Value} :
    blank ∈ blankPaths path (.list items) ↔ ∃ item ∈ items, blank ∈ blankPaths path item := by
  rw [blankPaths]
  induction items with
  | nil => simp [itemBlankPaths]
  | cons item rest ih => simp [itemBlankPaths, ih]

/-- Along a list of names, in every item of every list on the way, there is a text at the end. -/
inductive FilledAt : List String → Value → Prop
  | text {text : String} (htext : text.isEmpty = false) : FilledAt [] (.scalar text)
  | field {name : String} {rest : List String} {fields : List (String × Value)} {value : Value}
      (hget : Entries.get? name fields = some value) (hvalue : FilledAt rest value) :
      FilledAt (name :: rest) (.record fields)
  | items {names : List String} {items : List Value} (hne : items ≠ [])
      (hitems : ∀ item ∈ items, FilledAt names item) : FilledAt names (.list items)

end Value

namespace Layout

/-- No path of the outline ends at a default. -/
def NoDefaults (layout : Layout) (path : String) (outline : Outline) : Prop :=
  ∀ names ∈ outline, layout.fallback? (names.foldl FieldPath.extend path) = none

/-- Where the value is nothing, there is no default that it could have taken. -/
inductive Settled (layout : Layout) : String → Outline → Value → Prop
  | nothing {path : String} {outline : Outline} (hnone : layout.NoDefaults path outline) :
      Settled layout path outline .null
  | text {path : String} {outline : Outline} (text : String) :
      Settled layout path outline (.scalar text)
  | record {path : String} {outline : Outline} {fields : List (String × Value)}
      (hbranch : outline.IsBranch) (hnames : Entries.names fields = outline.names)
      (hfields : ∀ field ∈ fields,
        Settled layout (FieldPath.extend path field.1) (outline.below field.1) field.2) :
      Settled layout path outline (.record fields)
  | list {path : String} {outline : Outline} {items : List Value}
      (hitems : ∀ item ∈ items, Settled layout path outline item) :
      Settled layout path outline (.list items)

variable {layout : Layout} {path : String} {outline : Outline}

theorem Settled.branch {fields : Record} (h : layout.Settled path outline (.record fields)) :
    outline.IsBranch := by
  cases h with
  | record hbranch hnames hfields => exact hbranch

theorem Settled.names_eq {fields : Record} (h : layout.Settled path outline (.record fields)) :
    Entries.names fields = outline.names := by
  cases h with
  | record hbranch hnames hfields => exact hnames

theorem Settled.field {fields : Record} (h : layout.Settled path outline (.record fields))
    {field : String × Value} (hfield : field ∈ fields) :
    layout.Settled (FieldPath.extend path field.1) (outline.below field.1) field.2 := by
  cases h with
  | record hbranch hnames hfields => exact hfields field hfield

theorem Settled.item {items : List Value} (h : layout.Settled path outline (.list items))
    {item : Value} (hitem : item ∈ items) : layout.Settled path outline item := by
  cases h with
  | list hitems => exact hitems item hitem

theorem Settled.noDefaults (h : layout.Settled path outline .null) :
    layout.NoDefaults path outline := by
  cases h with
  | nothing hnone => exact hnone

/-- Below a field of a settled record there are paths. -/
theorem Settled.below_ne_nil {fields : Record} (h : layout.Settled path outline (.record fields))
    {field : String × Value} (hfield : field ∈ fields) : outline.below field.1 ≠ [] := by
  have hname := Entries.mem_names_of_mem hfield
  rw [h.names_eq] at hname
  exact Outline.below_ne_nil hname

/-- A settled value that is nothing somewhere is so at the end of some names that paths of the
outline go through, and none of these paths ends at a default. -/
theorem Settled.of_mem_blankPaths {value : Value} {blank : String}
    (h : layout.Settled path outline value) (hne : outline ≠ [])
    (hblank : blank ∈ value.blankPaths path) :
    ∃ names, (∃ rest, names ++ rest ∈ outline) ∧ blank = names.foldl FieldPath.extend path ∧
      ∀ rest, names ++ rest ∈ outline →
        layout.fallback? ((names ++ rest).foldl FieldPath.extend path) = none := by
  induction h with
  | nothing hnone =>
    rw [Value.blankPaths, List.mem_singleton] at hblank
    exact ⟨[], List.exists_mem_of_ne_nil _ hne, hblank, hnone⟩
  | text text =>
    rw [Value.blankPaths] at hblank
    cases hblank
  | record hbranch hnames hfields ih =>
    have hrecord := Settled.record hbranch hnames hfields
    obtain ⟨field, hfield, hblank⟩ := Value.mem_blankPaths_record.mp hblank
    obtain ⟨names, ⟨rest, hrest⟩, rfl, hnone⟩ :=
      ih field hfield (hrecord.below_ne_nil hfield) hblank
    refine ⟨field.1 :: names, ⟨rest, Outline.mem_below.mp hrest⟩, rfl, fun rest hrest => ?_⟩
    exact hnone rest (Outline.mem_below.mpr hrest)
  | list hitems ih =>
    obtain ⟨item, hitem, hblank⟩ := Value.mem_blankPaths_list.mp hblank
    exact ih item hitem hne hblank

/-- No default stands where a settled record holds nothing, nor at any path that goes on from there,
if the segments have no dots. -/
theorem Settled.notMem_fallbacks {schema : Schema} {settings : Settings} {record : Record}
    (h : (Layout.mk schema settings).Settled "" (Outline.ofColumns schema.columns) (.record record))
    (hlawful : schema.Lawful) (hplain : schema.Plain) {blank : String}
    (hblank : blank ∈ Value.blankPaths "" (.record record)) (more : List String) :
    more.foldl FieldPath.extend blank ∉ Entries.names schema.fallbacks := by
  have hsegments := hplain.isPlain hlawful
  obtain ⟨field, hfield, hbelow⟩ := Value.mem_blankPaths_record.mp hblank
  obtain ⟨names, ⟨rest, hrest⟩, rfl, hnone⟩ :=
    (h.field hfield).of_mem_blankPaths (h.below_ne_nil hfield) hbelow
  obtain ⟨through, hthrough, hsame⟩ := List.mem_map.mp (Outline.mem_below.mp hrest)
  intro hmem
  obtain ⟨text, htext⟩ := Entries.exists_get? hmem
  obtain ⟨-, column, hcolumn, hpath⟩ := hlawful.fallbacks _ text htext
  -- the default belongs to a column whose path goes through the blank
  obtain ⟨tail, htail⟩ : ∃ tail, column.segments = (field.1 :: names) ++ tail := by
    have hgrown : more.foldl FieldPath.extend (FieldPath.ofSegments (field.1 :: names)) =
        FieldPath.ofSegments column.segments := hpath.symm
    refine FieldPath.exists_append_of_foldl_extend (List.cons_ne_nil _ _)
      (fun segment hsegment => ?_) (hsegments column hcolumn) (hlawful.segments column hcolumn).1
      hgrown
    refine hsegments through hthrough segment ?_
    rw [hsame]
    exact List.mem_append_left rest hsegment
  have hend : names ++ tail ∈ (Outline.ofColumns schema.columns).below field.1 := by
    refine Outline.mem_below.mpr ?_
    rw [← List.cons_append, ← htail]
    exact List.mem_map_of_mem hcolumn
  have hnot : Entries.get? (FieldPath.ofSegments (field.1 :: names ++ tail)) schema.fallbacks =
      none := hnone tail hend
  rw [← hpath, Column.path, htail, hnot] at htext
  cases htext

/-- What conforms and is settled has a text wherever there is a default. -/
theorem filledAt_of_settled (value : Value) :
    ∀ {path outline names}, layout.Settled path outline value → names ∈ outline →
      (layout.fallback? (names.foldl FieldPath.extend path)).isSome →
      (layout.FieldFits path outline value → value.FilledAt names) ∧
        (layout.ItemFits path outline value → value.FilledAt names) := by
  induction value using Value.treeInduction with
  | null =>
    intro path outline names hsettled hnames hdefault
    rw [hsettled.noDefaults names hnames] at hdefault
    cases hdefault
  | scalar text =>
    intro path outline names hsettled hnames hdefault
    have hitem : layout.ItemFits path outline (.scalar text) →
        (Value.scalar text).FilledAt names := by
      intro h
      cases h with
      | cell hleaf htext =>
        obtain rfl := hleaf names hnames
        exact .text htext
    refine ⟨fun h => ?_, hitem⟩
    cases h with
    | single hlist hvalue => exact hitem hvalue
  | record fields ih =>
    intro path outline names hsettled hnames hdefault
    have hitem : layout.ItemFits path outline (.record fields) →
        (Value.record fields).FilledAt names := by
      intro h
      obtain ⟨name, rest, rfl⟩ := List.exists_cons_of_ne_nil (hsettled.branch names hnames)
      have hname : name ∈ Entries.names fields := by
        rw [h.names_eq]
        exact Outline.mem_names.mpr ⟨rest, hnames⟩
      obtain ⟨value, hget⟩ := Entries.exists_get? hname
      have hmem := Entries.mem_of_get? hget
      have hvalue := ih _ hmem (hsettled.field hmem) (Outline.mem_below.mpr hnames) hdefault
      exact .field hget (hvalue.1 (h.field hmem))
    refine ⟨fun h => ?_, hitem⟩
    cases h with
    | single hlist hvalue => exact hitem hvalue
  | list items ih =>
    intro path outline names hsettled hnames hdefault
    refine ⟨fun h => ?_, fun h => absurd h ItemFits.not_list⟩
    cases h with
    | single hlist hvalue => exact absurd hvalue ItemFits.not_list
    | several hlist hne hitems =>
      refine .items hne fun item hitem => ?_
      exact (ih item hitem (hsettled.item hitem) hnames hdefault).2 (hitems item hitem)

end Layout

namespace Record

open Value (IsRaw)
open Layout (Settled)

variable {layout : Layout} {path : String} {outline : Outline}

/-! ## Filled values in shape -/

/-- A raw value that is filled to nothing has no defaults in it. -/
theorem noDefaults_of_isEmpty_fillField {value : Value} (h : IsRaw outline value)
    (hd : layout.Declares path outline) (hends : layout.EndDefaults path outline)
    (hempty : (fillField layout path value).isEmpty = true) : layout.NoDefaults path outline := by
  induction h generalizing path with
  | @cell outline value hleaf hcell =>
    intro names hnames
    obtain rfl := hleaf names hnames
    show layout.fallback? path = none
    rw [fillField_of_isCell hcell] at hempty
    cases hfallback : layout.fallback? path with
    | none => rfl
    | some text =>
      have hfilled := hd.filled _ _ hfallback
      rw [hfallback] at hempty
      cases value with
      | null =>
        simp only [Value.fillLeaf_null, Value.isEmpty_scalar, hfilled, Bool.false_eq_true] at hempty
      | scalar old =>
        have hold : old.isEmpty = false := hcell
        simp only [Value.fillLeaf, hold, Bool.false_eq_true, if_false,
          Value.isEmpty_scalar] at hempty
      | record fields => exact hcell.elim
      | list items => exact hcell.elim
  | @record outline fields hbranch hnames hfields ih =>
    intro names hmem
    have hraw := IsRaw.record hbranch hnames hfields
    rw [fillField_eq_fillValue hends hraw (List.ne_nil_of_mem hmem), fillValue,
      Value.isEmpty_record, Value.fieldsEmpty_iff, fill_eq_map, List.forall_mem_map] at hempty
    obtain ⟨name, rest, rfl⟩ := List.exists_cons_of_ne_nil (hbranch names hmem)
    obtain ⟨value, -, hfield, hrest⟩ := hraw.exists_get? hmem
    exact ih _ hfield (hd.below name) (hends.below name) (hempty _ hfield) rest hrest

theorem settled_wrapAt {value : Value} (h : IsRaw outline value)
    (hempty : value.isEmpty = true → layout.NoDefaults path outline)
    (hitem : value.isEmpty = false → layout.Settled path outline (shaped layout path value)) :
    layout.Settled path outline (wrapAt layout path (shaped layout path value)) := by
  rw [wrapAt_shaped h]
  by_cases hnone : value.isEmpty = true
  · rw [if_pos hnone]
    exact .nothing (hempty hnone)
  · have hsettled := hitem (Bool.not_eq_true _ ▸ hnone)
    rw [if_neg hnone]
    by_cases hlist : layout.isList path = true
    · rw [if_pos hlist]
      exact .list (List.forall_mem_singleton.mpr hsettled)
    · rw [if_neg hlist]
      exact hsettled

/-- The shape of a filled raw value is settled, unless it is nothing. -/
theorem settled_shaped_fillField {value : Value} (h : IsRaw outline value) (hne : outline ≠ [])
    (hd : layout.Declares path outline) (hends : layout.EndDefaults path outline)
    (hfilled : (fillField layout path value).isEmpty = false) :
    layout.Settled path outline (shaped layout path (fillField layout path value)) := by
  induction h generalizing path with
  | @cell outline value hleaf hcell =>
    have hfill := (isRaw_fillField hd (.cell hleaf hcell)).isCell hne hleaf
    generalize fillField layout path value = filled at hfill hfilled ⊢
    cases filled with
    | null => cases hfilled
    | scalar text =>
      rw [shaped]
      exact .text text
    | record fields => exact hfill.elim
    | list items => exact hfill.elim
  | @record outline fields hbranch hnames hfields ih =>
    have hraw := IsRaw.record hbranch hnames hfields
    rw [fillField_eq_fillValue hends hraw hne, fillValue] at hfilled ⊢
    rw [shaped_record (isRaw_fill hd hraw) hfilled]
    refine .record hbranch (by rw [names_shapedFields, names_fill, hnames]) ?_
    rw [shapedFields_eq_map, fill_eq_map, List.map_map, List.forall_mem_map]
    intro field hfield
    have hbelow := hraw.below_ne_nil hfield
    refine settled_wrapAt (isRaw_fillField (hd.below field.1) (hfields field hfield)) ?_ ?_
    · exact noDefaults_of_isEmpty_fillField (hfields field hfield) (hd.below field.1)
        (hends.below field.1)
    · exact ih field hfield hbelow (hd.below field.1) (hends.below field.1)

/-- What a raw value with something in it makes is settled. -/
theorem settled_newItem {raw : Value} (h : IsRaw outline raw) (hne : outline ≠ [])
    (hd : layout.Declares path outline) (hends : layout.EndDefaults path outline)
    (hfilled : raw.isEmpty = false) : layout.Settled path outline (newItem layout path raw) := by
  rw [newItem, ← fillField_eq_fillValue hends h hne]
  exact settled_shaped_fillField h hne hd hends (isEmpty_fillField h hfilled)

/-! ## Grown lists and records -/

theorem settled_addItem {slot item : Value} (hslot : layout.Settled path outline slot)
    (hitem : layout.Settled path outline item) :
    layout.Settled path outline (Value.addItem item slot) := by
  have hboth : layout.Settled path outline (.list [slot, item]) := by
    refine .list (List.forall_mem_cons.mpr ⟨hslot, List.forall_mem_singleton.mpr hitem⟩)
  cases slot with
  | null => exact .list (List.forall_mem_singleton.mpr hitem)
  | scalar text => exact hboth
  | record fields => exact hboth
  | list items =>
    refine .list (List.forall_mem_append.mpr ⟨fun other hother => hslot.item hother, ?_⟩)
    exact List.forall_mem_singleton.mpr hitem

theorem settled_replaceLast {slot last item : Value} (hslot : layout.Settled path outline slot)
    (hlast : slot.lastItem? = some last) (hitem : layout.Settled path outline item) :
    layout.Settled path outline (Value.replaceLast item slot) := by
  obtain ⟨items, rfl, hreplace⟩ := eq_list_of_lastItem hlast
  rw [hreplace]
  refine .list (List.forall_mem_append.mpr ⟨fun other hother => ?_, ?_⟩)
  · exact hslot.item (List.mem_append_left _ hother)
  · exact List.forall_mem_singleton.mpr hitem

/-- A record is settled after it grew if each of its lists is that takes something in. -/
theorem settled_growFields_of_slots {raw previous : Record} (h : IsRaw outline (.record raw))
    (hprevious : layout.Settled path outline (.record previous))
    (hslots : ∀ field ∈ raw, field.2.isEmpty = false → ∀ slot : Value,
      layout.Settled (FieldPath.extend path field.1) (outline.below field.1) slot →
      layout.Settled (FieldPath.extend path field.1) (outline.below field.1)
        (growSlot layout (FieldPath.extend path field.1) slot field.2)) :
    layout.Settled path outline (.record (growFields layout path previous raw)) := by
  refine .record h.branch (by rw [names_growFields, hprevious.names_eq]) ?_
  refine forall_growFields (by rw [hprevious.names_eq, h.names_eq]) ?_
  intro slot hslot field hfield hname
  have hsettled := hprevious.field hslot
  rw [hname] at hsettled ⊢
  show layout.Settled _ (outline.below field.1) (growField _ _ _ _)
  rw [growField]
  split
  · rename_i hoffers
    rw [Bool.and_eq_true, Bool.not_eq_true'] at hoffers
    exact hslots field hfield hoffers.2 slot.2 hsettled
  · exact hsettled

/-- A settled list is settled after it took something in. -/
theorem settled_growSlot {raw : Value} (h : IsRaw outline raw) (hne : outline ≠ [])
    (hd : layout.Declares path outline) (hends : layout.EndDefaults path outline)
    (hfilled : raw.isEmpty = false) {slot : Value} (hslot : layout.Settled path outline slot) :
    layout.Settled path outline (growSlot layout path slot raw) := by
  induction h generalizing path slot with
  | cell hleaf hcell =>
    rw [growSlot_of_isCell hcell]
    exact settled_addItem hslot (settled_newItem (.cell hleaf hcell) hne hd hends hfilled)
  | @record outline fields hbranch hnames hfields ih =>
    have hraw := IsRaw.record hbranch hnames hfields
    rcases growSlot_cases layout path slot (.record fields) with
      ⟨last, same, hlast, hsame, -, hgrown⟩ | ⟨-, hgrown⟩
    · obtain rfl := Value.record.inj hsame
      have hlastSettled : layout.Settled path outline (.record last) := by
        obtain ⟨items, rfl, -⟩ := eq_list_of_lastItem hlast
        exact hslot.item (List.mem_append_right _ List.mem_cons_self)
      rw [hgrown]
      refine settled_replaceLast hslot hlast (settled_growFields_of_slots hraw hlastSettled ?_)
      intro field hfield hfilled slot hslot
      exact ih field hfield (hraw.below_ne_nil hfield) (hd.below field.1) (hends.below field.1)
        hfilled hslot
    · rw [hgrown]
      exact settled_addItem hslot (settled_newItem hraw hne hd hends hfilled)

/-- A settled record is settled after it took in a raw row. -/
theorem settled_growFields {raw previous : Record} (h : IsRaw outline (.record raw))
    (hd : layout.Declares path outline) (hends : layout.EndDefaults path outline)
    (hprevious : layout.Settled path outline (.record previous)) :
    layout.Settled path outline (.record (growFields layout path previous raw)) := by
  refine settled_growFields_of_slots h hprevious ?_
  intro field hfield hfilled slot hslot
  exact settled_growSlot (h.field hfield) (h.below_ne_nil hfield) (hd.below field.1)
    (hends.below field.1) hfilled hslot

end Record

namespace CompiledSheet

open Value (IsRaw)

variable {layout : Layout} {sheet : Worksheet} {outline : Outline}

/-! ## The row loop -/

/-- A row leaves settled records settled. -/
theorem settled_takeIn {raw : Record} (h : IsRaw outline (.record raw))
    (hd : layout.Declares "" outline) (hends : layout.EndDefaults "" outline)
    {records : List Record}
    (hrecords : ∀ record ∈ records, layout.Settled "" outline (.record record)) :
    ∀ record ∈ takeIn layout records raw, layout.Settled "" outline (.record record) := by
  refine forall_takeIn hrecords (fun hfilled => ?_) fun previous hprevious => ?_
  · have hne : outline ≠ [] := by
      rintro rfl
      rw [List.map_eq_nil_iff.mp h.names_eq] at hfilled
      cases hfilled
    rw [← newItem_eq_newRecord hd h hfilled]
    exact Record.settled_newItem h hne hd hends hfilled
  · exact Record.settled_growFields h hd hends hprevious

theorem settled_foldl (hd : layout.Declares "" outline) (hends : layout.EndDefaults "" outline)
    {raws : List Record} (h : ∀ raw ∈ raws, IsRaw outline (.record raw)) {records : List Record}
    (hrecords : ∀ record ∈ records, layout.Settled "" outline (.record record)) :
    ∀ record ∈ raws.foldl (takeIn layout) records, layout.Settled "" outline (.record record) := by
  induction raws generalizing records with
  | nil => exact hrecords
  | cons raw raws ih =>
    obtain ⟨hraw, hrest⟩ := List.forall_mem_cons.mp h
    exact ih hrest (settled_takeIn hraw hd hends hrecords)

/-- The records that a worksheet compiles to are settled, if its segments have no dots. -/
theorem settled_ofWorksheet {rules : Rules} {schema : Schema} {compiled : CompiledSheet}
    (h : Schema.ofSheet rules sheet = .ok schema) (hplain : schema.Plain)
    (hcompiled : ofWorksheet rules sheet = .ok compiled) : ∀ record ∈ compiled.records,
      (Layout.mk schema rules.settings).Settled "" (Outline.ofColumns schema.columns)
        (.record record) := by
  have hlawful := Schema.lawful_ofSheet h
  have hd := Layout.declares_of_lawful hlawful rules.settings
  obtain ⟨raws, hraws, hrecords⟩ := ofWorksheet_eq_ok h hcompiled
  have hall := isRaw_of_rawRows hraws
  intro record hrecord
  rw [hrecords, List.mem_reverse] at hrecord
  cases raws with
  | nil => cases hrecord
  | cons raw rest =>
    have hends := Layout.endDefaults_of_plain hlawful hplain (hall raw List.mem_cons_self)
      rules.settings
    exact settled_foldl hd hends hall (by simp) record hrecord

/-- Where a record that a worksheet compiles to holds nothing, there is no default, not even further
down; and a field with a default holds a text in every record and in every item. -/
theorem defaults_total {rules : Rules} {schema : Schema} {compiled : CompiledSheet}
    (h : Schema.ofSheet rules sheet = .ok schema) (hplain : schema.Plain)
    (hcompiled : ofWorksheet rules sheet = .ok compiled) :
    ∀ record ∈ compiled.records,
      (∀ blank ∈ Value.blankPaths "" (.record record), ∀ more : List String,
        more.foldl FieldPath.extend blank ∉ Entries.names schema.fallbacks) ∧
      ∀ column ∈ schema.columns, column.path ∈ Entries.names schema.fallbacks →
        Value.FilledAt column.segments (.record record) := by
  intro record hrecord
  have hsettled := settled_ofWorksheet h hplain hcompiled record hrecord
  constructor
  · intro blank hblank more
    exact hsettled.notMem_fallbacks (Schema.lawful_ofSheet h) hplain hblank more
  · intro column hcolumn hfallback
    have hfits := conforms_ofWorksheet h hcompiled record hrecord
    obtain ⟨text, htext⟩ := Entries.exists_get? hfallback
    have hdefault : ((Layout.mk schema rules.settings).fallback?
        (column.segments.foldl FieldPath.extend "")).isSome := by
      exact Option.isSome_iff_exists.mpr ⟨text, htext⟩
    exact (Layout.filledAt_of_settled (.record record) hsettled (List.mem_map_of_mem hcolumn)
      hdefault).2 hfits

/-- Bob's item has neither a name nor tags, and these have no defaults; its grade is filled. -/
theorem inventory_defaults_total : ∃ rules schema compiled record column,
    Schema.ofSheet rules inventory.worksheet = .ok schema ∧ schema.Plain ∧
    ofWorksheet rules inventory.worksheet = .ok compiled ∧
    record ∈ compiled.records ∧ column ∈ schema.columns ∧
    column.path ∈ Entries.names schema.fallbacks ∧
    Value.blankPaths "" (.record record) = ["Items.Name", "Items.Tags"] ∧
    (∀ blank ∈ Value.blankPaths "" (.record record), ∀ more : List String,
      more.foldl FieldPath.extend blank ∉ Entries.names schema.fallbacks) ∧
    Value.FilledAt column.segments (.record record) := by
  obtain ⟨rules, schema, compiled, hrules, hschema, hcompiled, hcolumns, hrecords⟩ :=
    inventory_compiles
  have hplain : schema.Plain := by
    have hsegments : ∀ segments ∈ schema.columns.map Column.segments, ∀ segment ∈ segments,
        FieldPath.separator ∉ segment.toList := by
      rw [hcolumns]
      decide +kernel
    exact List.forall_mem_map.mp hsegments
  have hfallbacks : ((Rules.ofSettings {}).toOption.bind fun rules =>
      (Schema.ofSheet rules inventory.worksheet).toOption.map fun schema =>
        Entries.names schema.fallbacks) = some ["Items.Grade"] := by
    decide +kernel
  simp only [hrules, hschema, Except.toOption, Option.bind_some, Option.map_some,
    Option.some.injEq] at hfallbacks
  have hgrade : ["Items", "Grade"] ∈ schema.columns.map Column.segments := by
    rw [hcolumns]
    decide
  obtain ⟨column, hcolumn, hsegments⟩ := List.mem_map.mp hgrade
  have hdefault : column.path ∈ Entries.names schema.fallbacks := by
    rw [hfallbacks, Column.path, hsegments]
    decide
  obtain ⟨bob, hbob, hblanks⟩ : ∃ record ∈ compiled.records,
      Value.blankPaths "" (.record record) = ["Items.Name", "Items.Tags"] := by
    rw [hrecords]
    decide +kernel
  obtain ⟨hnone, hfilled⟩ := defaults_total hschema hplain hcompiled bob hbob
  exact ⟨rules, schema, compiled, bob, column, hschema, hplain, hcompiled, hbob, hcolumn, hdefault,
    hblanks, hnone, hfilled column hcolumn hdefault⟩

end CompiledSheet

end SheetCompiler
