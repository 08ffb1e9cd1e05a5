import Mathlib.Data.List.Forall2
import Mathlib.Data.List.Nodup
import Mathlib.Data.List.Zip
import SheetCompiler.Proofs.Agreement

/-!
# Values with their fields in another order

Two values are `Value.Rearranged` if they are the same up to the order of the fields in their
records, at every depth.  The items of lists keep their order.

The row loop respects this: what it does with a field depends on the path of the field and on what
stands in it, never on the fields before it.  So rows with their fields in another order fill, shape
and grow records alike, and the records that they make differ in the order of fields only
(`CompiledSheet.forall₂_foldl_takeIn`).

Two raw values are rearranged if they branch at the same paths and hold the same cells there
(`Value.IsRaw.rearranged`).  So are the rows of two worksheets if the last columns of each path read
alike (`Record.rearranged_ofRow`), and then the records that the worksheets compile to
(`CompiledSheet.forall₂_records_of_rows`).
-/

namespace SheetCompiler

namespace Value

/-- Two values are the same up to the order of the fields in their records. -/
inductive Rearranged : Value → Value → Prop
  | null : Rearranged .null .null
  | scalar (text : String) : Rearranged (.scalar text) (.scalar text)
  | record {fields others : List (String × Value)} (hnodup : (Entries.names fields).Nodup)
      (hnames : (Entries.names fields).Perm (Entries.names others))
      (hvalues : ∀ name value other, Entries.get? name fields = some value →
        Entries.get? name others = some other → Rearranged value other) :
      Rearranged (.record fields) (.record others)
  | list {items others : List Value} (hlength : items.length = others.length)
      (hitems : ∀ pair ∈ items.zip others, Rearranged pair.1 pair.2) :
      Rearranged (.list items) (.list others)

end Value

/-- Two records are the same up to the order of their fields, and so are the records in them. -/
def Record.Rearranged (record other : Record) : Prop :=
  Value.Rearranged (.record record) (.record other)

namespace Value

variable {value other slot otherSlot : Value} {fields others : Record}

/-! ## Fields and items -/

theorem Rearranged.nodup (h : Rearranged (.record fields) (.record others)) :
    (Entries.names fields).Nodup := by
  cases h with
  | record hnodup hnames hvalues => exact hnodup

theorem Rearranged.names_perm (h : Rearranged (.record fields) (.record others)) :
    (Entries.names fields).Perm (Entries.names others) := by
  cases h with
  | record hnodup hnames hvalues => exact hnames

theorem Rearranged.of_get? (h : Rearranged (.record fields) (.record others)) {name : String}
    (hvalue : Entries.get? name fields = some value)
    (hother : Entries.get? name others = some other) : Rearranged value other := by
  cases h with
  | record hnodup hnames hvalues => exact hvalues name value other hvalue hother

theorem Rearranged.symm (h : Rearranged value other) : Rearranged other value := by
  induction h with
  | null => exact .null
  | scalar text => exact .scalar text
  | record hnodup hnames _ ih =>
    exact .record (hnames.nodup_iff.mp hnodup) hnames.symm fun name other value hother hvalue =>
      ih name value other hvalue hother
  | @list items others hlength _ ih =>
    refine .list hlength.symm fun pair hpair => ?_
    rw [← List.zip_swap, List.mem_map] at hpair
    obtain ⟨swapped, hswapped, rfl⟩ := hpair
    exact ih swapped hswapped

/-- What holds of every field of a record holds of every field of the other one. -/
theorem forall_fields_of_perm {P : String → Value → Prop}
    (hnodup : (Entries.names fields).Nodup)
    (hnames : (Entries.names fields).Perm (Entries.names others))
    (hvalues : ∀ name value other, Entries.get? name fields = some value →
      Entries.get? name others = some other → P name value → P name other)
    (h : ∀ field ∈ fields, P field.1 field.2) : ∀ field ∈ others, P field.1 field.2 := by
  intro field hfield
  obtain ⟨value, hvalue⟩ :=
    Entries.exists_get? (hnames.mem_iff.mpr (Entries.mem_names_of_mem hfield))
  have hother := Entries.get?_of_mem (hnames.nodup_iff.mp hnodup) hfield
  exact hvalues _ _ _ hvalue hother (h _ (Entries.mem_of_get? hvalue))

/-- A change of every field that respects the order of fields. -/
theorem rearranged_map (hnodup : (Entries.names fields).Nodup)
    (hnames : (Entries.names fields).Perm (Entries.names others)) {f g : String × Value → Value}
    (h : ∀ name value other, Entries.get? name fields = some value →
      Entries.get? name others = some other → Rearranged (f (name, value)) (g (name, other))) :
    Rearranged (.record (fields.map fun field => (field.1, f field)))
      (.record (others.map fun field => (field.1, g field))) := by
  have hkept : ∀ (f : String × Value → Value) (fields : Record),
      Entries.names (fields.map fun field => (field.1, f field)) = Entries.names fields :=
    fun f fields => by simp [Entries.names, Function.comp_def]
  refine .record (by rwa [hkept]) (by rwa [hkept, hkept]) fun name value other hvalue hother => ?_
  rw [Entries.get?_map, Option.map_eq_some_iff] at hvalue hother
  obtain ⟨old, hold, rfl⟩ := hvalue
  obtain ⟨otherOld, hotherOld, rfl⟩ := hother
  exact h name old otherOld hold hotherOld

/-- Cells have no fields to be rearranged. -/
theorem Rearranged.eq_of_isCell (h : Rearranged value other) (hcell : value.IsCell) :
    other = value := by
  cases h with
  | null => rfl
  | scalar text => rfl
  | record hnodup hnames hvalues => exact hcell.elim
  | list hlength hitems => exact hcell.elim

theorem rearranged_of_isCell (hcell : value.IsCell) : Rearranged value value := by
  cases value with
  | null => exact .null
  | scalar text => exact .scalar text
  | record fields => exact hcell.elim
  | list items => exact hcell.elim

theorem Rearranged.isEmpty_eq (h : Rearranged value other) : value.isEmpty = other.isEmpty := by
  induction h with
  | null => rfl
  | scalar text => rfl
  | record hnodup hnames _ ih =>
    rw [Bool.eq_iff_iff, isEmpty_record, isEmpty_record, fieldsEmpty_iff, fieldsEmpty_iff]
    constructor
    · exact @forall_fields_of_perm _ _ (fun _ value => value.isEmpty = true) hnodup hnames
        fun name value other hvalue hother hempty => ih name value other hvalue hother ▸ hempty
    · exact @forall_fields_of_perm _ _ (fun _ value => value.isEmpty = true)
        (hnames.nodup_iff.mp hnodup) hnames.symm
        fun name other value hother hvalue hempty => ih name value other hvalue hother ▸ hempty
  | list hlength _ _ =>
    rw [isEmpty_list, isEmpty_list, Bool.eq_iff_iff, List.isEmpty_iff_length_eq_zero,
      List.isEmpty_iff_length_eq_zero, hlength]

theorem Rearranged.collapse (h : Rearranged value other) :
    Rearranged value.collapse other.collapse := by
  have hempty := h.isEmpty_eq
  cases h with
  | null => exact .null
  | scalar text => exact .scalar text
  | list hlength hitems => exact .list hlength hitems
  | @record fields others hnodup hnames hvalues =>
    rw [isEmpty_record, isEmpty_record] at hempty
    rw [Value.collapse, Value.collapse, hempty]
    split
    · exact .null
    · exact .record hnodup hnames hvalues

/-- Lists with further items at their ends. -/
theorem rearranged_append {items others more otherMore : List Value}
    (hlength : items.length = others.length)
    (hitems : ∀ pair ∈ items.zip others, Rearranged pair.1 pair.2)
    (h : Rearranged (.list more) (.list otherMore)) :
    Rearranged (.list (items ++ more)) (.list (others ++ otherMore)) := by
  cases h with
  | list hmoreLength hmore =>
    refine .list (by rw [List.length_append, List.length_append, hlength, hmoreLength]) ?_
    rw [List.zip_append hlength, List.forall_mem_append]
    exact ⟨hitems, hmore⟩

theorem Rearranged.singleton (h : Rearranged value other) :
    Rearranged (.list [value]) (.list [other]) :=
  .list rfl (List.forall_mem_singleton.mpr h)

theorem Rearranged.wrap (h : Rearranged value other) : Rearranged value.wrap other.wrap := by
  cases h with
  | null => exact .null
  | scalar text => exact (Rearranged.scalar text).singleton
  | record hnodup hnames hvalues => exact (Rearranged.record hnodup hnames hvalues).singleton
  | list hlength hitems => exact .list hlength hitems

theorem Rearranged.addItem (h : Rearranged value other) (hslot : Rearranged slot otherSlot) :
    Rearranged (addItem value slot) (addItem other otherSlot) := by
  have hpair : ∀ {first otherFirst : Value}, Rearranged first otherFirst →
      Rearranged (.list [first, value]) (.list [otherFirst, other]) := fun hfirst =>
    .list rfl (List.forall_mem_cons.mpr ⟨hfirst, List.forall_mem_singleton.mpr h⟩)
  cases hslot with
  | null => exact h.singleton
  | scalar text => exact hpair (.scalar text)
  | record hnodup hnames hvalues => exact hpair (.record hnodup hnames hvalues)
  | list hlength hitems => exact rearranged_append hlength hitems h.singleton

/-- Two lists of which one ends with a record both do, and these are rearranged. -/
theorem Rearranged.exists_lastItem (hslot : Rearranged slot otherSlot) {last : Record}
    (hlast : slot.lastItem? = some (.record last)) :
    ∃ otherLast, otherSlot.lastItem? = some (.record otherLast) ∧ last.Rearranged otherLast ∧
      ∀ {value other}, Rearranged value other →
        Rearranged (replaceLast value slot) (replaceLast other otherSlot) := by
  obtain ⟨items, rfl, hreplace⟩ := Record.eq_list_of_lastItem hlast
  cases hslot with
  | @list _ others hlength hitems =>
    rw [List.length_append, List.length_singleton] at hlength
    obtain ⟨front, final, rfl⟩ := List.eq_nil_or_concat others |>.resolve_left fun hnil => by
      rw [hnil, List.length_nil] at hlength
      omega
    rw [List.concat_eq_append] at hlength hitems ⊢
    rw [List.length_append, List.length_singleton, Nat.add_right_cancel_iff] at hlength
    rw [List.zip_append hlength, List.forall_mem_append] at hitems
    have hfinal : Rearranged (.record last) final := hitems.2 _ List.mem_cons_self
    cases hfinal with
    | @record _ otherLast hnodup hnames hvalues =>
      refine ⟨otherLast, List.getLast?_concat, .record hnodup hnames hvalues, fun h => ?_⟩
      rw [hreplace, replaceLast, List.dropLast_concat]
      exact rearranged_append hlength hitems.1 h.singleton

/-! ## Raw values -/

/-- Raw records that branch alike, with the same cells at the ends of their paths, are rearranged
if this holds one level further down. -/
theorem IsRaw.rearranged_of_below {outline otherOutline : Outline}
    (h : IsRaw outline (.record fields)) (hother : IsRaw otherOutline (.record others))
    (hpaths : ∀ names, names ∈ outline ↔ names ∈ otherOutline)
    (hcells : ∀ names ∈ outline, descend names (.record fields) = descend names (.record others))
    (hbelow : ∀ field ∈ fields, ∀ inner other, IsRaw inner other →
      (∀ names, names ∈ outline.below field.1 ↔ names ∈ inner) → outline.below field.1 ≠ [] →
      (∀ names ∈ outline.below field.1, descend names field.2 = descend names other) →
      Rearranged field.2 other) : Record.Rearranged fields others := by
  have hnames : (Entries.names fields).Perm (Entries.names others) := by
    rw [List.perm_ext_iff_of_nodup h.nodup hother.nodup, h.names_eq, hother.names_eq]
    intro name
    simp only [Outline.mem_names, hpaths]
  refine .record h.nodup hnames fun name value other hvalue hotherValue => ?_
  have hmem := Entries.mem_of_get? hvalue
  refine hbelow (name, value) hmem (otherOutline.below name) other
    (hother.field (Entries.mem_of_get? hotherValue))
    (fun names => by rw [Outline.mem_below, Outline.mem_below, hpaths])
    (h.below_ne_nil hmem) fun names hinner => ?_
  have hsame := hcells (name :: names) (Outline.mem_below.mp hinner)
  rwa [Record.descend_record_cons, Record.descend_record_cons, hvalue, hotherValue,
    Option.map_some, Option.map_some, Option.getD_some, Option.getD_some] at hsame

theorem descend_of_isCell {names : List String} (hcell : value.IsCell) (hnames : names = []) :
    descend names value = [value] := by
  rw [hnames, descend_nil]
  cases value with
  | null => rfl
  | scalar text => rfl
  | record fields => exact hcell.elim
  | list items => exact hcell.elim

/-- Raw values that branch alike are rearranged if the same cell stands at the end of each path. -/
theorem IsRaw.rearranged {outline otherOutline : Outline} (h : IsRaw outline value)
    (hother : IsRaw otherOutline other)
    (hpaths : ∀ names, names ∈ outline ↔ names ∈ otherOutline) (hne : outline ≠ [])
    (hcells : ∀ names ∈ outline, descend names value = descend names other) :
    Rearranged value other := by
  induction h generalizing otherOutline other with
  | @cell outline value hleaf hcell =>
    obtain ⟨names, hnames⟩ := List.exists_mem_of_ne_nil _ hne
    have hotherNe : otherOutline ≠ [] := List.ne_nil_of_mem ((hpaths names).mp hnames)
    have hotherCell : other.IsCell := hother.isCell hotherNe fun names hnames =>
      hleaf names ((hpaths names).mpr hnames)
    have hsame := hcells names hnames
    rw [descend_of_isCell hcell (hleaf names hnames),
      descend_of_isCell hotherCell (hleaf names hnames), List.singleton_inj] at hsame
    exact hsame ▸ rearranged_of_isCell hcell
  | @record outline fields hbranch hnames hfields ih =>
    have hraw := IsRaw.record hbranch hnames hfields
    obtain ⟨names, hmem⟩ := List.exists_mem_of_ne_nil _ hne
    have hotherNe : otherOutline ≠ [] := List.ne_nil_of_mem ((hpaths names).mp hmem)
    obtain ⟨others, rfl⟩ := hother.exists_record hotherNe fun names hnames =>
      hbranch names ((hpaths names).mpr hnames)
    exact hraw.rearranged_of_below hother hpaths hcells fun field hfield inner other hinner =>
      ih field hfield hinner

/-- Rows with the same cells at the ends of their paths are rearranged, also if there are no
columns. -/
theorem IsRaw.rearranged_record {outline otherOutline : Outline}
    (h : IsRaw outline (.record fields)) (hother : IsRaw otherOutline (.record others))
    (hpaths : ∀ names, names ∈ outline ↔ names ∈ otherOutline)
    (hcells : ∀ names ∈ outline, descend names (.record fields) = descend names (.record others)) :
    Record.Rearranged fields others :=
  h.rearranged_of_below hother hpaths hcells fun _ hfield _ _ hinner =>
    (h.field hfield).rearranged hinner

end Value

namespace Record

open Value (IsRaw forall_fields_of_perm rearranged_map rearranged_of_isCell)
open Layout (FieldFits ItemFits)

variable {layout : Layout} {path : String} {outline otherOutline : Outline}
  {value other slot otherSlot : Value} {raw otherRaw previous otherPrevious : Record}

/-! ## Shaping and filling -/

theorem rearranged_wrapAt (h : Value.Rearranged value other) (path : String) :
    Value.Rearranged (wrapAt layout path value) (wrapAt layout path other) := by
  rw [wrapAt, wrapAt]
  split
  · exact h.wrap
  · exact h

theorem rearranged_shaped (h : Value.Rearranged value other) (path : String) :
    Value.Rearranged (shaped layout path value) (shaped layout path other) := by
  induction h generalizing path with
  | null =>
    rw [shaped]
    exact .null
  | scalar text =>
    rw [shaped]
    exact .scalar text
  | record hnodup hnames _ ih =>
    rw [shaped, shaped, shapedFields_eq_map, shapedFields_eq_map]
    exact (rearranged_map hnodup hnames fun name value other hvalue hother =>
      rearranged_wrapAt (ih name value other hvalue hother _) _).collapse
  | list hlength hitems _ =>
    rw [shaped, shaped]
    exact .list hlength hitems

theorem rearranged_fillLeaf (h : value.IsCell) (text : String) :
    Value.Rearranged (value.fillLeaf text) (value.fillLeaf text) := by
  cases value with
  | null => exact .scalar text
  | scalar old =>
    rw [Value.fillLeaf]
    split
    · exact .scalar text
    · exact .scalar old
  | record fields => exact h.elim
  | list items => exact h.elim

theorem rearranged_fillField (h : IsRaw outline value) (hr : Value.Rearranged value other)
    (path : String) :
    Value.Rearranged (fillField layout path value) (fillField layout path other) := by
  induction h generalizing path other with
  | cell hleaf hcell =>
    rw [hr.eq_of_isCell hcell, fillField_of_isCell hcell]
    split
    · exact rearranged_fillLeaf hcell _
    · exact rearranged_of_isCell hcell
  | record hbranch hnames hfields ih =>
    cases hr with
    | record hnodup hperm hvalues =>
      rw [fillField, fillField]
      split
      · exact .record hnodup hperm hvalues
      · rw [fill_eq_map, fill_eq_map]
        exact rearranged_map hnodup hperm fun name value other hvalue hother =>
          ih _ (Entries.mem_of_get? hvalue) (hvalues name value other hvalue hother) _

theorem rearranged_fillValue (h : IsRaw outline value) (hr : Value.Rearranged value other)
    (path : String) :
    Value.Rearranged (fillValue layout path value) (fillValue layout path other) := by
  cases hr with
  | null => exact rearranged_fillField h .null path
  | scalar text => exact rearranged_fillField h (.scalar text) path
  | list hlength hitems => exact rearranged_fillField h (.list hlength hitems) path
  | record hnodup hperm hvalues =>
    rw [fillValue, fillValue, fill_eq_map, fill_eq_map]
    exact rearranged_map hnodup hperm fun name value other hvalue hother =>
      rearranged_fillField (h.field (Entries.mem_of_get? hvalue))
        (hvalues name value other hvalue hother) _

theorem rearranged_newItem (h : IsRaw outline value) (hr : Value.Rearranged value other)
    (path : String) :
    Value.Rearranged (newItem layout path value) (newItem layout path other) :=
  rearranged_shaped (rearranged_fillValue h hr path) path

/-! ## Growing -/

theorem continues_eq_of_rearranged (hr : raw.Rearranged otherRaw) (path : String) :
    continues layout path raw = continues layout path otherRaw := by
  have hkept : ∀ {raw otherRaw : Record}, Record.Rearranged raw otherRaw →
      (∀ field ∈ raw, (layout.isList (FieldPath.extend path field.1) ||
        field.2.isEmpty) = true) →
      ∀ field ∈ otherRaw, (layout.isList (FieldPath.extend path field.1) ||
        field.2.isEmpty) = true :=
    fun hr => forall_fields_of_perm (P := fun name value =>
      (layout.isList (FieldPath.extend path name) || value.isEmpty) = true) hr.nodup hr.names_perm
      fun name value other hvalue hother hlist => by
        rwa [← (hr.of_get? hvalue hother).isEmpty_eq]
  rw [continues, continues, Bool.eq_iff_iff, Bool.and_eq_true, Bool.and_eq_true, List.all_eq_true,
    List.all_eq_true]
  exact and_congr_right fun _ => ⟨hkept hr, hkept hr.symm⟩

/-- Records grow alike if their list fields do. -/
theorem rearranged_growFields_of_slots (h : IsRaw outline (.record raw))
    (hother : IsRaw otherOutline (.record otherRaw)) (hr : raw.Rearranged otherRaw)
    (hprevious : previous.Rearranged otherPrevious)
    (hfits : layout.ItemFits path outline (.record previous))
    (hotherFits : layout.ItemFits path otherOutline (.record otherPrevious))
    (hslots : ∀ name value other, Entries.get? name raw = some value →
      Entries.get? name otherRaw = some other →
      layout.isList (FieldPath.extend path name) = true → ∀ slot otherSlot,
      Value.Rearranged slot otherSlot →
      layout.FieldFits (FieldPath.extend path name) (outline.below name) slot →
      layout.FieldFits (FieldPath.extend path name) (otherOutline.below name) otherSlot →
      Value.Rearranged (growSlot layout (FieldPath.extend path name) slot value)
        (growSlot layout (FieldPath.extend path name) otherSlot other)) :
    Record.Rearranged (growFields layout path previous raw)
      (growFields layout path otherPrevious otherRaw) := by
  have hnames : Entries.names previous = Entries.names raw := by
    rw [hfits.names_eq, h.names_eq]
  have hotherNames : Entries.names otherPrevious = Entries.names otherRaw := by
    rw [hotherFits.names_eq, hother.names_eq]
  rw [growFields_eq_map hnames h.nodup, growFields_eq_map hotherNames hother.nodup]
  refine rearranged_map hprevious.nodup hprevious.names_perm ?_
  intro name slot otherSlot hslot hotherSlot
  have hmem := Entries.mem_of_get? hslot
  have hotherMem := Entries.mem_of_get? hotherSlot
  obtain ⟨value, hvalue⟩ := Entries.exists_get? (hnames ▸ Entries.mem_names_of_mem hmem)
  obtain ⟨other, hotherValue⟩ :=
    Entries.exists_get? (hotherNames ▸ Entries.mem_names_of_mem hotherMem)
  have hslotRearranged := hprevious.of_get? hslot hotherSlot
  rw [hvalue, hotherValue, Option.getD_some, Option.getD_some, growField, growField,
    ← (hr.of_get? hvalue hotherValue).isEmpty_eq]
  split
  · rename_i hgrows
    rw [Bool.and_eq_true] at hgrows
    exact hslots name value other hvalue hotherValue hgrows.1 slot otherSlot hslotRearranged
      (hfits.field hmem) (hotherFits.field hotherMem)
  · exact hslotRearranged

/-- Lists take rearranged values in alike. -/
theorem rearranged_growSlot (h : IsRaw outline value) (hother : IsRaw otherOutline other)
    (hr : Value.Rearranged value other) (hlist : layout.isList path = true)
    (hslot : Value.Rearranged slot otherSlot) (hfits : layout.FieldFits path outline slot)
    (hotherFits : layout.FieldFits path otherOutline otherSlot) :
    Value.Rearranged (growSlot layout path slot value) (growSlot layout path otherSlot other) := by
  induction h generalizing path otherOutline other slot otherSlot with
  | @cell _ value hleaf hcell =>
    have hitem := @rearranged_newItem layout _ _ _ (.cell hleaf hcell) hr path
    rw [hr.eq_of_isCell hcell] at hitem ⊢
    rw [growSlot_of_isCell hcell, growSlot_of_isCell hcell]
    exact hitem.addItem hslot
  | @record outline fields hbranch hnames hfields ih =>
    have hraw := IsRaw.record hbranch hnames hfields
    have hitem := @rearranged_newItem layout _ _ _ hraw hr path
    cases hr with
    | @record _ others hnodup hperm hvalues =>
      have hrecord : Record.Rearranged fields others := .record hnodup hperm hvalues
      by_cases hlast : ∃ last, slot.lastItem? = some (.record last)
      · obtain ⟨last, hlast⟩ := hlast
        obtain ⟨otherLast, hotherLast, hlasts, hreplace⟩ := hslot.exists_lastItem hlast
        have hcontinues := @continues_eq_of_rearranged layout _ _ hrecord path
        cases hsame : continues layout path fields with
        | false =>
          rw [hsame] at hcontinues
          rw [growSlot_of_not_continues hsame, growSlot_of_not_continues hcontinues.symm]
          exact hitem.addItem hslot
        | true =>
          rw [hsame] at hcontinues
          rw [growSlot_of_continues hlast hsame,
            growSlot_of_continues hotherLast hcontinues.symm]
          refine hreplace (rearranged_growFields_of_slots hraw hother hrecord hlasts
            (hfits.of_lastItem hlist hlast) (hotherFits.of_lastItem hlist hotherLast) ?_)
          intro name value other hvalue hotherValue hlist slot otherSlot hslot hfits hotherFits
          exact ih (name, value) (Entries.mem_of_get? hvalue)
            (hother.field (Entries.mem_of_get? hotherValue))
            (hvalues name value other hvalue hotherValue) hlist hslot hfits hotherFits
      · have hotherLast : ¬ ∃ last, otherSlot.lastItem? = some (.record last) := by
          rintro ⟨last, hotherLast⟩
          obtain ⟨found, hfound, -⟩ := hslot.symm.exists_lastItem hotherLast
          exact hlast ⟨found, hfound⟩
        rw [growSlot_of_no_lastItem (not_exists.mp hlast),
          growSlot_of_no_lastItem (not_exists.mp hotherLast)]
        exact hitem.addItem hslot

theorem rearranged_growFields (h : IsRaw outline (.record raw))
    (hother : IsRaw otherOutline (.record otherRaw)) (hr : raw.Rearranged otherRaw)
    (hprevious : previous.Rearranged otherPrevious)
    (hfits : layout.ItemFits path outline (.record previous))
    (hotherFits : layout.ItemFits path otherOutline (.record otherPrevious)) :
    Record.Rearranged (growFields layout path previous raw)
      (growFields layout path otherPrevious otherRaw) := by
  refine rearranged_growFields_of_slots h hother hr hprevious hfits hotherFits ?_
  intro name value other hvalue hotherValue hlist slot otherSlot hslot hfits hotherFits
  exact rearranged_growSlot (h.field (Entries.mem_of_get? hvalue))
    (hother.field (Entries.mem_of_get? hotherValue)) (hr.of_get? hvalue hotherValue) hlist hslot
    hfits hotherFits

end Record

namespace CompiledSheet

open Value (IsRaw)

variable {layout : Layout} {outline otherOutline : Outline}

/-! ## The row loop -/

/-- Records with their fields in another order take in such a row alike. -/
theorem forall₂_takeIn (hd : layout.Declares "" outline) (hotherD : layout.Declares "" otherOutline)
    {raw otherRaw : Record} (h : IsRaw outline (.record raw))
    (hother : IsRaw otherOutline (.record otherRaw)) (hr : raw.Rearranged otherRaw)
    {records others : List Record} (hrecords : Conforms layout outline records)
    (hothers : Conforms layout otherOutline others)
    (hsame : List.Forall₂ Record.Rearranged records others) :
    List.Forall₂ Record.Rearranged (takeIn layout records raw) (takeIn layout others otherRaw) := by
  have hempty : Value.fieldsEmpty raw = Value.fieldsEmpty otherRaw := by
    rw [← Value.isEmpty_record, hr.isEmpty_eq, Value.isEmpty_record]
  cases hfilled : Value.fieldsEmpty raw with
  | true => rwa [takeIn_of_fieldsEmpty hfilled, takeIn_of_fieldsEmpty (hempty ▸ hfilled)]
  | false =>
    have hotherFilled : Value.fieldsEmpty otherRaw = false := hempty ▸ hfilled
    have hnew : Record.Rearranged (newRecord layout raw) (newRecord layout otherRaw) := by
      rw [Record.Rearranged, ← newItem_eq_newRecord hd h hfilled,
        ← newItem_eq_newRecord hotherD hother hotherFilled]
      exact Record.rearranged_newItem h hr ""
    cases hsame with
    | nil =>
      rw [takeIn_nil hfilled, takeIn_nil hotherFilled]
      exact .cons hnew .nil
    | cons hprevious hearlier =>
      rw [takeIn_cons hfilled, takeIn_cons hotherFilled,
        ← Record.continues_eq_of_rearranged hr ""]
      split
      · refine .cons (Record.rearranged_growFields h hother hr hprevious ?_ ?_) hearlier
        · exact hrecords _ List.mem_cons_self
        · exact hothers _ List.mem_cons_self
      · exact .cons hnew (.cons hprevious hearlier)

/-- Rows with their fields in another order make records with their fields in another order. -/
theorem forall₂_foldl_takeIn (hd : layout.Declares "" outline)
    (hotherD : layout.Declares "" otherOutline) {raws otherRaws : List Record}
    (h : ∀ raw ∈ raws, IsRaw outline (.record raw))
    (hother : ∀ raw ∈ otherRaws, IsRaw otherOutline (.record raw))
    (hr : List.Forall₂ Record.Rearranged raws otherRaws) {records others : List Record}
    (hrecords : Conforms layout outline records) (hothers : Conforms layout otherOutline others)
    (hsame : List.Forall₂ Record.Rearranged records others) :
    List.Forall₂ Record.Rearranged (raws.foldl (takeIn layout) records)
      (otherRaws.foldl (takeIn layout) others) := by
  induction hr generalizing records others with
  | nil => exact hsame
  | cons hraw _ ih =>
    obtain ⟨hfirst, hrest⟩ := List.forall_mem_cons.mp h
    obtain ⟨hotherFirst, hotherRest⟩ := List.forall_mem_cons.mp hother
    exact ih hrest hotherRest (conforms_takeIn hd hfirst hrecords)
      (conforms_takeIn hotherD hotherFirst hothers)
      (forall₂_takeIn hd hotherD hfirst hotherFirst hraw hrecords hothers hsame)

end CompiledSheet

/-! ## The rows of a worksheet -/

/-- Two rows are rearranged if their columns have the same paths, and for each path the last column
with it reads as a column of the other row that is the last one there. -/
theorem Record.rearranged_ofRow {sheet other : Worksheet} {columns others : List Column} {row : Nat}
    (hpaths : ∀ names, names ∈ Outline.ofColumns columns ↔ names ∈ Outline.ofColumns others)
    (hcells : ∀ column : Column, column.LastIn columns → ∃ same : Column, same.LastIn others ∧
      same.segments = column.segments ∧
      (sheet.cellText row column.index).map ofCell = (other.cellText row same.index).map ofCell)
    {raw otherRaw : Record} (hraw : ofRow sheet columns row = .ok raw)
    (hotherRaw : ofRow other others row = .ok otherRaw) : raw.Rearranged otherRaw := by
  refine (isRaw_ofRow hraw).rearranged_record (isRaw_ofRow hotherRaw) hpaths ?_
  intro names hnames
  obtain ⟨column, hcolumn, rfl⟩ := List.mem_map.mp hnames
  obtain ⟨last, hlast, hsegments⟩ := Column.exists_lastIn hcolumn
  obtain ⟨same, hsameLast, hsame, hcell⟩ := hcells last hlast
  obtain ⟨text, htext, hdescend⟩ := descend_ofRow hraw hlast
  obtain ⟨otherText, hotherText, hotherDescend⟩ := descend_ofRow hotherRaw hsameLast
  rw [Worksheet.cellText_of_read htext, Worksheet.cellText_of_read hotherText] at hcell
  have hvalue : ofCell text = ofCell otherText := Except.ok.inj hcell
  rw [← hsegments, hdescend, ← hsame, hotherDescend, hvalue]

namespace CompiledSheet

variable {sheet other : Worksheet}

/-- Rows that are rearranged one by one. -/
theorem forall₂_rearranged {columns others : List Column} {rows : List Nat}
    (hrows : ∀ row ∈ rows, ∀ raw otherRaw, Record.ofRow sheet columns row = .ok raw →
      Record.ofRow other others row = .ok otherRaw → raw.Rearranged otherRaw)
    {raws otherRaws : List Record} (hraws : rawRows sheet columns rows = .ok raws)
    (hotherRaws : rawRows other others rows = .ok otherRaws) :
    List.Forall₂ Record.Rearranged raws otherRaws := by
  induction rows generalizing raws otherRaws with
  | nil =>
    rw [← Except.ok.inj hraws, ← Except.ok.inj hotherRaws]
    exact .nil
  | cons row rows ih =>
    obtain ⟨hrow, hrest⟩ := List.forall_mem_cons.mp hrows
    rw [rawRows_cons] at hraws hotherRaws
    obtain ⟨raw, hraw, hraws⟩ := bind_eq_ok.mp hraws
    obtain ⟨rest, hrestRaws, rfl⟩ := map_eq_ok.mp hraws
    obtain ⟨otherRaw, hotherRaw, hotherRaws⟩ := bind_eq_ok.mp hotherRaws
    obtain ⟨otherRest, hotherRest, rfl⟩ := map_eq_ok.mp hotherRaws
    exact .cons (hrow raw otherRaw hraw hotherRaw) (ih hrest hrestRaws hotherRest)

variable {rules : Rules} {schema otherSchema : Schema}

/-- Rows that are rearranged one by one make records that are rearranged one by one, if the paths
are the same and the row loop is answered alike. -/
theorem forall₂_foldl_of_rows (hschema : Schema.ofSheet rules sheet = .ok schema)
    {columns : List Column} {layout : Layout}
    (hpaths : ∀ names, names ∈ Outline.ofColumns schema.columns ↔ names ∈ Outline.ofColumns columns)
    (hagrees : layout.Agrees ⟨schema, rules.settings⟩) {rows : List Nat}
    (hrows : ∀ row ∈ rows, ∀ raw otherRaw, Record.ofRow sheet schema.columns row = .ok raw →
      Record.ofRow other columns row = .ok otherRaw → raw.Rearranged otherRaw)
    {raws otherRaws : List Record} (hraws : rawRows sheet schema.columns rows = .ok raws)
    (hotherRaws : rawRows other columns rows = .ok otherRaws) :
    List.Forall₂ Record.Rearranged (raws.foldl (takeIn ⟨schema, rules.settings⟩) [])
      (otherRaws.foldl (takeIn layout) []) := by
  have hd := Layout.declares_of_lawful (Schema.lawful_ofSheet hschema) rules.settings
  have hotherD : (Layout.mk schema rules.settings).Declares "" (Outline.ofColumns columns) :=
    ⟨fun segments hsegments => hd.typed segments ((hpaths segments).mpr hsegments), hd.filled⟩
  rw [foldl_takeIn_agrees hagrees (isRaw_of_rawRows hotherRaws)]
  exact forall₂_foldl_takeIn hd hotherD (isRaw_of_rawRows hraws) (isRaw_of_rawRows hotherRaws)
    (forall₂_rearranged hrows hraws hotherRaws) (by simp [Conforms]) (by simp [Conforms]) .nil

/-- The same for the records that worksheets compile to. -/
theorem forall₂_records_of_rows (hschema : Schema.ofSheet rules sheet = .ok schema)
    (hother : Schema.ofSheet rules other = .ok otherSchema)
    (hpaths : ∀ names, names ∈ Outline.ofColumns schema.columns ↔
      names ∈ Outline.ofColumns otherSchema.columns)
    (hagrees : (Layout.mk otherSchema rules.settings).Agrees ⟨schema, rules.settings⟩)
    (hdataRows : dataRows otherSchema = dataRows schema)
    (hrows : ∀ row ∈ dataRows schema, ∀ raw otherRaw,
      Record.ofRow sheet schema.columns row = .ok raw →
      Record.ofRow other otherSchema.columns row = .ok otherRaw → raw.Rearranged otherRaw)
    {compiled otherCompiled : CompiledSheet} (hcompiled : ofWorksheet rules sheet = .ok compiled)
    (hotherCompiled : ofWorksheet rules other = .ok otherCompiled) :
    List.Forall₂ Record.Rearranged compiled.records otherCompiled.records := by
  obtain ⟨raws, hraws, hrecords⟩ := ofWorksheet_eq_ok hschema hcompiled
  obtain ⟨otherRaws, hotherRaws, hotherRecords⟩ := ofWorksheet_eq_ok hother hotherCompiled
  rw [hdataRows] at hotherRaws
  rw [hrecords, hotherRecords, List.forall₂_reverse_iff]
  exact forall₂_foldl_of_rows hschema hpaths hagrees hrows hraws hotherRaws

end CompiledSheet

end SheetCompiler
