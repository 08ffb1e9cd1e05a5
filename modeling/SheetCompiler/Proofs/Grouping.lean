import Mathlib.Data.List.SplitBy
import SheetCompiler.Proofs.LeafDefaults
import SheetCompiler.Proofs.RowLoop

/-!
# Records as groups of rows

The row loop changes the last record again and again.  The records can also be had from all rows at
once: the rows are cut into groups before every row that cannot continue a record (`Record.group`),
and each group is built to a record (`Record.build`).  A field that is no list is that of the first
row of the group.  A list collects the values of all rows of the group; cells make one item each,
and records are grouped and built in the same way again.

The two agree (`CompiledSheet.records_eq_map_build`).  Building a group with one more row is growing
the record of the group by the row (`build_append_singleton`), at every depth: the last item of a
list is built from the last group of its values.
-/

namespace SheetCompiler

namespace Value

mutual

/-- Whether there is a leaf that is not nothing. -/
def hasLeaf : Value → Bool
  | .null => false
  | .scalar _ => true
  | .record fields => fieldsHaveLeaf fields
  | .list items => itemsHaveLeaf items

/-- Whether there is such a leaf below some field. -/
def fieldsHaveLeaf : List (String × Value) → Bool
  | [] => false
  | (_, value) :: rest => hasLeaf value || fieldsHaveLeaf rest

/-- Whether there is such a leaf in some item. -/
def itemsHaveLeaf : List Value → Bool
  | [] => false
  | item :: rest => hasLeaf item || itemsHaveLeaf rest

end

theorem fieldsHaveLeaf_eq_any (fields : List (String × Value)) :
    fieldsHaveLeaf fields = fields.any fun field => hasLeaf field.2 := by
  induction fields with
  | nil => rw [fieldsHaveLeaf, List.any_nil]
  | cons field rest ih => rw [fieldsHaveLeaf, List.any_cons, ih]

/-- A raw value has a leaf exactly when it is not empty. -/
theorem hasLeaf_eq {outline : Outline} {value : Value} (h : IsRaw outline value) :
    value.hasLeaf = !value.isEmpty := by
  induction h with
  | @cell _ value hleaf hcell =>
    cases value with
    | null => rw [hasLeaf, isEmpty_null, Bool.not_true]
    | scalar text =>
      have htext : text.isEmpty = false := hcell
      rw [hasLeaf, isEmpty_scalar, htext, Bool.not_false]
    | record fields => exact hcell.elim
    | list items => exact hcell.elim
  | @record _ fields hbranch hnames hfields ih =>
    rw [hasLeaf, fieldsHaveLeaf_eq_any, isEmpty_record, Bool.eq_iff_iff, List.any_eq_true,
      Bool.not_eq_true', ← Bool.not_eq_true, fieldsEmpty_iff]
    constructor
    · rintro ⟨field, hfield, hleaf⟩ hempty
      rw [ih field hfield, hempty field hfield] at hleaf
      cases hleaf
    · intro hsome
      simp only [not_forall] at hsome
      obtain ⟨field, hfield, hfilled⟩ := hsome
      refine ⟨field, hfield, ?_⟩
      rw [ih field hfield, Bool.not_eq_true', ← Bool.not_eq_true]
      exact hfilled

end Value

namespace Record

/-! ## Groups -/

/-- Whether a raw record starts a group: it has a leaf where there is no list, or records are not
merged that deep. -/
def opens (layout : Layout) (path : String) (raw : Record) : Bool :=
  !layout.mergesBelow path ||
    raw.any fun field => !layout.isList (FieldPath.extend path field.1) && field.2.hasLeaf

/-- Cut raw records before each one that starts a group. -/
def group (layout : Layout) (path : String) (raws : List Record) : List (List Record) :=
  raws.splitBy fun _ next => !opens layout path next

/-- What the records of a group hold for the list in a field: the first one, if something stands
there in its finished form, and the others that have a leaf there. -/
def contributions (name : String) (kept : Bool) (head : Record) (others : List Record) :
    List Value :=
  (if kept then (Entries.get? name head).toList else []) ++
    (others.filterMap (Entries.get? name)).filter Value.hasLeaf

/-- The size of some values together. -/
noncomputable def weight : List Value → Nat
  | [] => 0
  | value :: rest => sizeOf value + weight rest

@[simp] theorem weight_nil : weight [] = 0 := rfl

@[simp] theorem weight_cons (value : Value) (rest : List Value) :
    weight (value :: rest) = sizeOf value + weight rest := rfl

theorem weight_append (front back : List Value) :
    weight (front ++ back) = weight front + weight back := by
  induction front with
  | nil => rw [List.nil_append, weight_nil, Nat.zero_add]
  | cons value front ih => rw [List.cons_append, weight_cons, weight_cons, ih, Nat.add_assoc]

theorem weight_le_of_sublist {front back : List Value} (h : front.Sublist back) :
    weight front ≤ weight back := by
  induction h with
  | slnil => exact Nat.le_refl _
  | cons value _ ih =>
    rw [weight_cons]
    omega
  | cons_cons value _ ih =>
    rw [weight_cons, weight_cons]
    omega

/-- A field weighs less than the record. -/
theorem sizeOf_lt_of_get? {name : String} {record : Record} {value : Value}
    (h : Entries.get? name record = some value) : sizeOf value < sizeOf (Value.record record) := by
  have hmem := List.sizeOf_lt_of_mem (Entries.mem_of_get? h)
  simp only [Prod.mk.sizeOf_spec, Value.record.sizeOf_spec] at hmem ⊢
  omega

theorem weight_get?_lt (name : String) (record : Record) :
    weight (Entries.get? name record).toList < sizeOf (Value.record record) := by
  cases h : Entries.get? name record with
  | none =>
    rw [Option.toList_none, weight_nil, Value.record.sizeOf_spec]
    omega
  | some value =>
    have hlt := sizeOf_lt_of_get? h
    rw [Option.toList_some, weight_cons, weight_nil]
    omega

theorem weight_filterMap_get?_le (name : String) (records : List Record) :
    weight (records.filterMap (Entries.get? name)) ≤ weight (records.map .record) := by
  induction records with
  | nil => exact Nat.le_refl _
  | cons record rest ih =>
    have hfirst := weight_get?_lt name record
    cases h : Entries.get? name record with
    | none =>
      rw [List.filterMap_cons_none h, List.map_cons, weight_cons]
      omega
    | some value =>
      rw [h, Option.toList_some, weight_cons, weight_nil] at hfirst
      rw [List.filterMap_cons_some h, List.map_cons, weight_cons, weight_cons]
      omega

/-- What a group holds for a list weighs less than the group. -/
theorem weight_contributions_lt (name : String) (kept : Bool) (head : Record)
    (others : List Record) :
    weight (contributions name kept head others) < weight ((head :: others).map .record) := by
  have hfirst := weight_get?_lt name head
  have hothers := (weight_le_of_sublist (@List.filter_sublist _ Value.hasLeaf
    (others.filterMap (Entries.get? name)))).trans (weight_filterMap_get?_le name others)
  rw [contributions, weight_append, List.map_cons, weight_cons]
  cases kept with
  | true =>
    rw [if_pos rfl]
    omega
  | false =>
    rw [if_neg Bool.false_ne_true, weight_nil]
    omega

/-- A group weighs no more than the values it is cut from. -/
theorem weight_group_le {layout : Layout} {path : String} {values : List Value}
    {records : List Record} (h : records ∈ group layout path (values.filterMap Value.record?)) :
    weight (records.map .record) ≤ weight values := by
  have hgroup : records.Sublist (values.filterMap Value.record?) := by
    rw [← List.flatten_splitBy (fun _ next => !opens layout path next)
      (values.filterMap Value.record?)]
    exact List.sublist_flatten_of_mem h
  have hrecords : (values.filterMap Value.record?).map Value.record =
      values.filter fun value => value.record?.isSome := by
    clear h hgroup
    induction values with
    | nil => rfl
    | cons value rest ih => cases value <;> simp [Value.record?, List.filterMap_cons, ih]
  refine weight_le_of_sublist ((hgroup.map Value.record).trans ?_)
  rw [hrecords]
  exact List.filter_sublist

/-- The records of the groups are the records that were cut. -/
theorem mem_of_mem_group {layout : Layout} {path : String} {raws part : List Record}
    (h : part ∈ group layout path raws) {raw : Record} (hraw : raw ∈ part) : raw ∈ raws := by
  rw [← List.flatten_splitBy (fun _ next => !opens layout path next) raws]
  exact List.mem_flatten_of_mem h hraw

/-- A further record that opens a group is one by itself. -/
theorem group_append_of_opens {layout : Layout} {path : String} {raw : Record}
    (h : opens layout path raw = true) (raws : List Record) :
    group layout path (raws ++ [raw]) = group layout path raws ++ [[raw]] := by
  have hcut : ∀ last ∈ raws.getLast?, (!opens layout path raw) = false := by
    intro _ _
    rw [h, Bool.not_true]
  rw [group, List.splitBy_append_cons [] hcut, group]
  rfl

/-- Any other further record joins the last group. -/
theorem group_append_of_not_opens {layout : Layout} {path : String} {raw : Record}
    (h : opens layout path raw = false) {raws : List Record} (hne : raws ≠ []) :
    ∃ front last, group layout path raws = front ++ [last] ∧ last ≠ [] ∧
      group layout path (raws ++ [raw]) = front ++ [last ++ [raw]] := by
  have hgroups : group layout path raws ≠ [] := List.splitBy_ne_nil.mpr hne
  obtain ⟨front, last, hsplit⟩ :=
    (List.eq_nil_or_concat' (group layout path raws)).resolve_left hgroups
  obtain ⟨hflatten, hnil, hchains, hcuts⟩ := List.splitBy_eq_iff.mp hsplit
  have hlast : last ≠ [] := fun hempty => hnil (by rw [hempty]; simp)
  refine ⟨front, last, hsplit, hlast, ?_⟩
  rw [group, List.splitBy_eq_iff]
  refine ⟨?_, ?_, ?_, ?_⟩
  · rw [hflatten, List.flatten_append, List.flatten_append, List.flatten_singleton,
      List.flatten_singleton, List.append_assoc]
  · rw [List.mem_append, not_or] at hnil ⊢
    exact ⟨hnil.1, by simp⟩
  · intro part hpart
    rcases List.mem_append.mp hpart with hfront | hend
    · exact hchains part (List.mem_append_left _ hfront)
    · rw [List.mem_singleton.mp hend]
      have hchain := hchains last (List.mem_append_right _ List.mem_cons_self)
      refine List.isChain_append.mpr ⟨hchain, List.isChain_singleton _, fun _ _ next hnext => ?_⟩
      rw [List.head?_cons, Option.mem_some_iff] at hnext
      rw [← hnext, h, Bool.not_false]
  · obtain ⟨hfront, -, hcut⟩ := List.isChain_append.mp hcuts
    refine List.isChain_append.mpr
      ⟨hfront, List.isChain_singleton _, fun part hpart next hnext => ?_⟩
    obtain ⟨hpartNe, _, hopens⟩ :=
      hcut part hpart last (by rw [List.head?_cons, Option.mem_some_iff])
    rw [List.head?_cons, Option.mem_some_iff] at hnext
    subst hnext
    refine ⟨hpartNe, by simp, ?_⟩
    rw [List.head_append_of_ne_nil hlast]
    exact hopens

/-! ## Building groups -/

mutual

/-- The list that raw values make at a path: one item for each cell, or one for each group of
records. -/
def buildItems (layout : Layout) (path : String) (values : List Value) : Value :=
  if values.isEmpty then .null
  else if values.all fun value => value.record?.isSome then
    .list ((group layout path (values.filterMap Value.record?)).attach.map fun records =>
      .record (build layout path records.1))
  else .list (values.map (fillValue layout path))
termination_by (weight values, 1)
decreasing_by
  have hle := weight_group_le records.2
  rw [Prod.lex_def]
  simp only
  omega

/-- The record that a group makes: the finished form of the first one, with the lists of all. -/
def build (layout : Layout) (path : String) (records : List Record) : Record :=
  match records with
  | [] => []
  | head :: others =>
    (shape layout path (fill layout path head)).value.map fun field =>
      (field.1,
        if layout.isList (FieldPath.extend path field.1) then
          buildItems layout (FieldPath.extend path field.1)
            (contributions field.1 (!field.2.isNull) head others)
        else field.2)
termination_by (weight (records.map .record), 0)
decreasing_by
  have hlt := weight_contributions_lt field.1 (!field.2.isNull) head others
  rw [Prod.lex_def]
  exact Or.inl hlt

end

theorem buildItems_nil (layout : Layout) (path : String) : buildItems layout path [] = .null := by
  rw [buildItems, List.isEmpty_nil, if_pos rfl]

/-- Raw records make one item for each group. -/
theorem buildItems_records {layout : Layout} {path : String} {records : List Record}
    (h : records ≠ []) : buildItems layout path (records.map .record) =
      .list ((group layout path records).map fun part => .record (build layout path part)) := by
  have hrecords : (records.map Value.record).filterMap Value.record? = records := by
    rw [List.filterMap_map]
    exact List.filterMap_some
  have hall : (records.map Value.record).all (fun value => value.record?.isSome) = true := by
    rw [List.all_map, List.all_eq_true]
    exact fun _ _ => rfl
  have hsome : ¬ (records.map Value.record).isEmpty = true := by
    rw [List.isEmpty_iff, List.map_eq_nil_iff]
    exact h
  rw [buildItems, hall, if_pos rfl, if_neg hsome, hrecords]
  exact congrArg Value.list
    (@List.attach_map_val _ _ _ fun part => Value.record (build layout path part))

/-- Cells make one item each. -/
theorem buildItems_cells {layout : Layout} {path : String} {values : List Value}
    (h : ∀ value ∈ values, value.IsCell) (hne : values ≠ []) :
    buildItems layout path values = .list (values.map (fillValue layout path)) := by
  obtain ⟨first, rest, rfl⟩ := List.exists_cons_of_ne_nil hne
  have hfirst : first.record?.isSome = false := by
    have hcell := h first List.mem_cons_self
    cases first with
    | null => rfl
    | scalar text => rfl
    | record fields => exact hcell.elim
    | list items => exact hcell.elim
  rw [buildItems, List.isEmpty_cons, if_neg Bool.false_ne_true, List.all_cons, hfirst,
    Bool.false_and, if_neg Bool.false_ne_true]

theorem build_cons {layout : Layout} {path : String} {outline : Outline} {head : Record}
    (hd : layout.Declares path outline) (h : Value.IsRaw outline (.record head))
    (others : List Record) :
    build layout path (head :: others) =
      (shapedFields layout path (fill layout path head)).map fun field =>
        (field.1,
          if layout.isList (FieldPath.extend path field.1) then
            buildItems layout (FieldPath.extend path field.1)
              (contributions field.1 (!field.2.isNull) head others)
          else field.2) := by
  rw [build, shape_of_typed (typed_of_isRaw hd (isRaw_fill hd h))]
  rfl

/-! ## Groups of one record -/

section

open Value (IsRaw)
open Layout (FieldFits ItemFits)

variable {layout : Layout} {path : String} {outline : Outline}

/-- A raw record opens a group exactly when it does not continue a record. -/
theorem opens_eq_not_continues {raw : Record} (h : IsRaw outline (.record raw)) :
    opens layout path raw = !continues layout path raw := by
  have hfields : (raw.any fun field =>
      !layout.isList (FieldPath.extend path field.1) && field.2.hasLeaf) =
      !raw.all fun field => layout.isList (FieldPath.extend path field.1) || field.2.isEmpty := by
    rw [List.not_all_eq_any_not, Bool.eq_iff_iff, List.any_eq_true, List.any_eq_true]
    refine exists_congr fun field => and_congr_right fun hfield => ?_
    rw [Value.hasLeaf_eq (h.field hfield), Bool.not_or]
  rw [opens, continues, hfields, Bool.not_and]

theorem shaped_of_isCell {value : Value} (h : value.IsCell) : shaped layout path value = value := by
  cases value with
  | null => rw [shaped]
  | scalar text => rw [shaped]
  | record fields => exact h.elim
  | list items => exact h.elim

/-- Nothing is kept of a shaped raw value exactly when nothing is filled in it. -/
theorem isNull_wrapAt_shaped {value : Value} (h : IsRaw outline value) :
    (wrapAt layout path (shaped layout path value)).isNull = value.isEmpty := by
  rw [wrapAt_shaped h]
  by_cases hempty : value.isEmpty = true
  · rw [if_pos hempty, hempty]
    rfl
  · rw [Bool.not_eq_true] at hempty
    rw [hempty, if_neg Bool.false_ne_true]
    split
    · rfl
    · exact (itemFits_shaped h hempty).isNull

theorem build_singleton_of_items {raw : Record} (hd : layout.Declares path outline)
    (h : IsRaw outline (.record raw))
    (hitems : ∀ field ∈ raw,
      (fillField layout (FieldPath.extend path field.1) field.2).isEmpty = false →
      buildItems layout (FieldPath.extend path field.1) [field.2] =
        .list [shaped layout (FieldPath.extend path field.1)
          (fillField layout (FieldPath.extend path field.1) field.2)]) :
    build layout path [raw] = shapedFields layout path (fill layout path raw) := by
  rw [build_cons hd h, shapedFields_eq_map, fill_eq_map, List.map_map, List.map_map, List.map_map]
  refine List.map_congr_left fun field hfield => Prod.ext rfl ?_
  have hfill := isRaw_fillField (hd.below field.1) (h.field hfield)
  show (if layout.isList (FieldPath.extend path field.1) = true then
    buildItems layout (FieldPath.extend path field.1) (contributions field.1
      (!(wrapAt layout (FieldPath.extend path field.1)
        (shaped layout (FieldPath.extend path field.1)
          (fillField layout (FieldPath.extend path field.1) field.2))).isNull) raw []) else _) = _
  by_cases hlist : layout.isList (FieldPath.extend path field.1) = true
  · rw [if_pos hlist, isNull_wrapAt_shaped hfill, contributions,
      Entries.get?_of_mem h.nodup hfield, Option.toList_some, List.filterMap_nil, List.filter_nil,
      List.append_nil, Function.comp_apply, wrapAt_shaped hfill]
    cases hempty : (fillField layout (FieldPath.extend path field.1) field.2).isEmpty with
    | true => rw [Bool.not_true, if_neg Bool.false_ne_true, if_pos rfl, buildItems_nil]
    | false =>
      rw [Bool.not_false, if_pos rfl, if_neg Bool.false_ne_true, if_pos hlist,
        hitems field hfield hempty]
  · rw [if_neg hlist]
    rfl

/-- One value makes one item, in its finished form. -/
theorem buildItems_singleton {value : Value} (hd : layout.Declares path outline)
    (hends : layout.EndDefaults path outline) (h : IsRaw outline value) (hne : outline ≠ [])
    (hfilled : (fillField layout path value).isEmpty = false) :
    buildItems layout path [value] = .list [shaped layout path (fillField layout path value)] := by
  induction h generalizing path with
  | @cell outline value hleaf hcell =>
    have hraw := IsRaw.cell hleaf hcell
    have hfill := (isRaw_fillField hd hraw).isCell hne hleaf
    rw [buildItems_cells (List.forall_mem_singleton.mpr hcell) (List.cons_ne_nil _ _),
      List.map_singleton, ← fillField_eq_fillValue hends hraw hne, shaped_of_isCell hfill]
  | @record outline fields hbranch hnames hfields ih =>
    have hraw := IsRaw.record hbranch hnames hfields
    have hfill := isRaw_fillValue hd hraw
    rw [fillField_eq_fillValue hends hraw hne] at hfilled ⊢
    have hbuild : build layout path [fields] =
        shapedFields layout path (fill layout path fields) := by
      refine build_singleton_of_items hd hraw ?_
      intro field hfield hkept
      have hne := hraw.below_ne_nil hfield
      exact ih field hfield (hd.below field.1) (hends.below field.1) hne hkept
    have hgroup : group layout path [fields] = [[fields]] := rfl
    have hitems := @buildItems_records layout path [fields] (List.cons_ne_nil _ _)
    rw [List.map_singleton, hgroup, List.map_singleton, hbuild] at hitems
    rw [hitems, fillValue, shaped_record hfill hfilled]

/-- A group of one record makes its finished form. -/
theorem build_singleton {raw : Record} (hd : layout.Declares path outline)
    (hends : layout.EndDefaults path outline) (h : IsRaw outline (.record raw)) :
    build layout path [raw] = shapedFields layout path (fill layout path raw) := by
  refine build_singleton_of_items hd h ?_
  intro field hfield hkept
  have hne := h.below_ne_nil hfield
  exact buildItems_singleton (hd.below field.1) (hends.below field.1) (h.field hfield) hne hkept

/-! ## Groups that get one more record -/

theorem isRaw_contributions {name : String} {kept : Bool} {head : Record} {others : List Record}
    (hhead : IsRaw outline (.record head))
    (hothers : ∀ raw ∈ others, IsRaw outline (.record raw)) :
    ∀ value ∈ contributions name kept head others, IsRaw (outline.below name) value := by
  intro value hvalue
  rcases List.mem_append.mp hvalue with hfirst | hrest
  · split at hfirst
    · exact hhead.field (Entries.mem_of_get? (Option.mem_toList.mp hfirst))
    · cases hfirst
  · obtain ⟨raw, hraw, hget⟩ := List.mem_filterMap.mp (List.mem_filter.mp hrest).1
    exact (hothers raw hraw).field (Entries.mem_of_get? hget)

/-- A further record contributes its field, if there is a leaf in it. -/
theorem contributions_append {name : String} {raw : Record} {value : Value}
    (hget : Entries.get? name raw = some value) (kept : Bool) (head : Record)
    (others : List Record) :
    contributions name kept head (others ++ [raw]) =
      contributions name kept head others ++ if value.hasLeaf then [value] else [] := by
  rw [contributions, List.filterMap_append, List.filter_append, ← List.append_assoc,
    ← contributions, List.filterMap_cons, hget, List.filterMap_nil, List.filter_cons,
    List.filter_nil]

theorem build_append_singleton_of_items {raw head : Record} {others : List Record}
    (hd : layout.Declares path outline) (h : IsRaw outline (.record raw))
    (hhead : IsRaw outline (.record head)) (hothers : ∀ raw ∈ others, IsRaw outline (.record raw))
    (hitems : ∀ field ∈ raw, field.2.isEmpty = false → ∀ values : List Value,
      (∀ value ∈ values, IsRaw (outline.below field.1) value) →
      buildItems layout (FieldPath.extend path field.1) (values ++ [field.2]) =
        growSlot layout (FieldPath.extend path field.1)
          (buildItems layout (FieldPath.extend path field.1) values) field.2) :
    build layout path (head :: others ++ [raw]) =
      growFields layout path (build layout path (head :: others)) raw := by
  have hnames : Entries.names (shapedFields layout path (fill layout path head)) =
      Entries.names raw := by
    rw [names_shapedFields, names_fill, hhead.names_eq, h.names_eq]
  have hbuiltNames : Entries.names (build layout path (head :: others)) = Entries.names raw := by
    rw [← hnames, build_cons hd hhead, Entries.names, List.map_map]
    rfl
  rw [growFields_eq_map hbuiltNames h.nodup, List.cons_append, build_cons hd hhead,
    build_cons hd hhead, List.map_map]
  refine List.map_congr_left fun slot hslot => Prod.ext rfl ?_
  have hname : slot.1 ∈ Entries.names raw := hnames ▸ Entries.mem_names_of_mem hslot
  obtain ⟨value, hget⟩ := Entries.exists_get? hname
  have hmem := Entries.mem_of_get? hget
  simp only [Function.comp_apply, hget, Option.getD_some]
  by_cases hlist : layout.isList (FieldPath.extend path slot.1) = true
  · rw [if_pos hlist, if_pos hlist, contributions_append hget, Value.hasLeaf_eq (h.field hmem)]
    cases hempty : value.isEmpty with
    | true =>
      rw [growField_of_isEmpty hempty, Bool.not_true, if_neg Bool.false_ne_true, List.append_nil]
    | false =>
      rw [growField_of_isList hlist hempty, Bool.not_false, if_pos rfl]
      exact hitems _ hmem hempty _ (isRaw_contributions hhead hothers)
  · rw [if_neg hlist, if_neg hlist, growField_of_not_isList (Bool.not_eq_true _ ▸ hlist)]

theorem exists_map_record {values : List Value} (hne : outline ≠ []) (hbranch : outline.IsBranch)
    (h : ∀ value ∈ values, IsRaw outline value) :
    ∃ raws : List Record, values = raws.map .record ∧
      ∀ raw ∈ raws, IsRaw outline (.record raw) := by
  induction values with
  | nil => exact ⟨[], rfl, by simp⟩
  | cons value rest ih =>
    obtain ⟨hvalue, hrest⟩ := List.forall_mem_cons.mp h
    obtain ⟨raw, rfl⟩ := hvalue.exists_record hne hbranch
    obtain ⟨raws, rfl, hraws⟩ := ih hrest
    exact ⟨raw :: raws, rfl, List.forall_mem_cons.mpr ⟨hvalue, hraws⟩⟩

theorem buildItems_of_filled {value : Value} (hd : layout.Declares path outline)
    (hends : layout.EndDefaults path outline) (h : IsRaw outline value) (hne : outline ≠ [])
    (hfilled : value.isEmpty = false) :
    buildItems layout path [value] = .list [newItem layout path value] := by
  have hfill : (fillField layout path value).isEmpty = false := isEmpty_fillField h hfilled
  rw [buildItems_singleton hd hends h hne hfill, fillField_eq_fillValue hends h hne, newItem]

/-- A record that opens a group makes a further item. -/
theorem buildItems_append_of_opens {raw : Record} {raws : List Record} (hnil : raws ≠ [])
    (hopens : opens layout path raw = true) (hcontinues : continues layout path raw = false)
    (hfirst : buildItems layout path [.record raw] = .list [newItem layout path (.record raw)]) :
    buildItems layout path ((raws ++ [raw]).map .record) =
      growSlot layout path (buildItems layout path (raws.map .record)) (.record raw) := by
  have hself : group layout path [raw] = [[raw]] := rfl
  rw [← List.map_singleton, buildItems_records (List.cons_ne_nil _ _), hself, List.map_singleton,
    Value.list.injEq] at hfirst
  rw [growSlot_of_not_continues hcontinues, buildItems_records hnil, buildItems_records (by simp),
    group_append_of_opens hopens, List.map_append, List.map_singleton, hfirst, Value.addItem]

/-- Any other record joins the last group, and grows the item that is made from it. -/
theorem buildItems_append_of_not_opens {raw : Record} {raws : List Record} (hnil : raws ≠ [])
    (hopens : opens layout path raw = false) (hcontinues : continues layout path raw = true)
    (hbuild : ∀ head others, (∀ other ∈ head :: others, other ∈ raws) →
      build layout path (head :: others ++ [raw]) =
        growFields layout path (build layout path (head :: others)) raw) :
    buildItems layout path ((raws ++ [raw]).map .record) =
      growSlot layout path (buildItems layout path (raws.map .record)) (.record raw) := by
  obtain ⟨front, last, hgroup, hlastNe, hjoined⟩ := group_append_of_not_opens hopens hnil
  obtain ⟨head, others, rfl⟩ := List.exists_cons_of_ne_nil hlastNe
  have hmem : ∀ other ∈ head :: others, other ∈ raws := fun other hother =>
    mem_of_mem_group (hgroup ▸ List.mem_append_right _ List.mem_cons_self) hother
  have hlast : (buildItems layout path (raws.map .record)).lastItem? =
      some (.record (build layout path (head :: others))) := by
    rw [buildItems_records hnil, hgroup, List.map_append, List.map_singleton, Value.lastItem?,
      List.getLast?_concat]
  rw [growSlot_of_continues hlast hcontinues, buildItems_records hnil, buildItems_records (by simp),
    hgroup, hjoined, List.map_append, List.map_append, List.map_singleton, List.map_singleton,
    hbuild head others hmem, Value.replaceLast, List.dropLast_concat]

/-- One more value grows the list that the values make. -/
theorem buildItems_append_singleton {value : Value} (hd : layout.Declares path outline)
    (hends : layout.EndDefaults path outline) (h : IsRaw outline value) (hne : outline ≠ [])
    (hfilled : value.isEmpty = false) {values : List Value}
    (hvalues : ∀ other ∈ values, IsRaw outline other) :
    buildItems layout path (values ++ [value]) =
      growSlot layout path (buildItems layout path values) value := by
  induction h generalizing path values with
  | @cell outline value hleaf hcell =>
    have hfirst := buildItems_of_filled hd hends (.cell hleaf hcell) hne hfilled
    rw [growSlot_of_isCell hcell]
    by_cases hnil : values = []
    · rw [hnil, List.nil_append, hfirst, buildItems_nil, Value.addItem]
    · have hcells : ∀ other ∈ values, other.IsCell := fun other hother =>
        (hvalues other hother).isCell hne hleaf
      have hall : ∀ other ∈ values ++ [value], other.IsCell :=
        List.forall_mem_append.mpr ⟨hcells, List.forall_mem_singleton.mpr hcell⟩
      rw [buildItems_cells (List.forall_mem_singleton.mpr hcell) (List.cons_ne_nil _ _),
        Value.list.injEq] at hfirst
      rw [buildItems_cells hcells hnil, buildItems_cells hall (by simp), List.map_append, hfirst,
        Value.addItem]
  | @record outline fields hbranch hnames hfields ih =>
    have hraw := IsRaw.record hbranch hnames hfields
    have hfirst := buildItems_of_filled hd hends hraw hne hfilled
    obtain ⟨raws, rfl, hraws⟩ := exists_map_record hne hbranch hvalues
    by_cases hnil : raws = []
    · rw [hnil, List.map_nil, List.nil_append, hfirst, buildItems_nil, growSlot_null]
    · have hopens := @opens_eq_not_continues layout path outline fields hraw
      rw [← List.map_singleton, ← List.map_append]
      cases hcontinues : continues layout path fields with
      | false =>
        rw [hcontinues, Bool.not_false] at hopens
        exact buildItems_append_of_opens hnil hopens hcontinues hfirst
      | true =>
        rw [hcontinues, Bool.not_true] at hopens
        refine buildItems_append_of_not_opens hnil hopens hcontinues ?_
        intro head others hmem
        obtain ⟨hhead, hothers⟩ := List.forall_mem_cons.mp fun other hother =>
          hraws other (hmem other hother)
        refine build_append_singleton_of_items hd hraw hhead hothers ?_
        intro field hfield hfilled values hvalues
        have hne := hraw.below_ne_nil hfield
        exact ih field hfield (hd.below field.1) (hends.below field.1) hne hfilled hvalues

/-- One more record grows the record that the group makes. -/
theorem build_append_singleton {raw head : Record} {others : List Record}
    (hd : layout.Declares path outline) (hends : layout.EndDefaults path outline)
    (h : IsRaw outline (.record raw)) (hhead : IsRaw outline (.record head))
    (hothers : ∀ raw ∈ others, IsRaw outline (.record raw)) :
    build layout path (head :: others ++ [raw]) =
      growFields layout path (build layout path (head :: others)) raw := by
  refine build_append_singleton_of_items hd h hhead hothers ?_
  intro field hfield hfilled values hvalues
  have hne := h.below_ne_nil hfield
  exact buildItems_append_singleton (hd.below field.1) (hends.below field.1) (h.field hfield) hne
    hfilled hvalues

end

end Record

namespace CompiledSheet

open Value (IsRaw)
open Record (build build_append_singleton build_singleton continues group group_append_of_opens
  group_append_of_not_opens mem_of_mem_group opens_eq_not_continues)

/-! ## All rows at once -/

/-- The rows in which something is filled. -/
def filledRows (raws : List Record) : List Record :=
  raws.filter fun raw => (Value.record raw).hasLeaf

/-- Taking in a filled row, where the records are those of the groups of the rows before it. -/
theorem takeIn_eq_map_build {layout : Layout} {outline : Outline}
    (hd : layout.Declares "" outline) (hends : layout.EndDefaults "" outline) {raws : List Record}
    (hraws : ∀ raw ∈ raws, IsRaw outline (.record raw)) {raw : Record}
    (hraw : IsRaw outline (.record raw)) (hfilled : Value.fieldsEmpty raw = false)
    {records : List Record}
    (hrecords : records.reverse = (group layout "" raws).map (build layout "")) :
    (takeIn layout records raw).reverse =
      (group layout "" (raws ++ [raw])).map (build layout "") := by
  have hopens := @opens_eq_not_continues layout "" outline raw hraw
  by_cases hnil : raws = []
  · have hnone : records = [] := by
      rw [← List.reverse_eq_nil_iff, hrecords, hnil]
      rfl
    have hself : group layout "" [raw] = [[raw]] := rfl
    rw [hnone, takeIn_nil hfilled, hnil, List.nil_append, hself, List.map_singleton,
      build_singleton hd hends hraw, List.reverse_singleton, newRecord]
  · cases hcontinues : continues layout "" raw with
    | false =>
      rw [hcontinues, Bool.not_false] at hopens
      rw [takeIn_of_not_continues hfilled hcontinues, List.reverse_cons, hrecords,
        group_append_of_opens hopens, List.map_append, List.map_singleton,
        build_singleton hd hends hraw, newRecord]
    | true =>
      rw [hcontinues, Bool.not_true] at hopens
      obtain ⟨front, last, hgroup, hlastNe, hjoined⟩ := group_append_of_not_opens hopens hnil
      obtain ⟨head, others, rfl⟩ := List.exists_cons_of_ne_nil hlastNe
      have hlast : head :: others ∈ group layout "" raws := by
        rw [hgroup]
        exact List.mem_append_right front List.mem_cons_self
      obtain ⟨hhead, hothers⟩ := List.forall_mem_cons.mp fun other hother =>
        hraws other (mem_of_mem_group hlast hother)
      rw [hgroup, List.map_append, List.map_singleton, List.reverse_eq_iff,
        List.reverse_append, List.reverse_singleton, List.singleton_append] at hrecords
      rw [hrecords, takeIn_cons hfilled, hcontinues, if_pos rfl, hjoined, List.map_append,
        List.map_singleton, build_append_singleton hd hends hraw hhead hothers,
        List.reverse_cons, List.reverse_reverse]

/-- Taking in rows one after another makes the records of their groups. -/
theorem foldl_takeIn_eq_map_build {layout : Layout} {outline : Outline}
    (hd : layout.Declares "" outline) (hends : layout.EndDefaults "" outline) {raws : List Record}
    (h : ∀ raw ∈ raws, IsRaw outline (.record raw)) :
    (raws.foldl (takeIn layout) []).reverse =
      (group layout "" (filledRows raws)).map (build layout "") := by
  induction raws using List.reverseRecOn with
  | nil => rfl
  | append_singleton raws raw ih =>
    obtain ⟨hraws, hlast⟩ := List.forall_mem_append.mp h
    have hraw := List.forall_mem_singleton.mp hlast
    have hrecords := ih hraws
    rw [List.foldl_append, List.foldl_cons, List.foldl_nil, filledRows, List.filter_append,
      ← filledRows, List.filter_cons, List.filter_nil, Value.hasLeaf_eq hraw, Value.isEmpty_record]
    cases hfilled : Value.fieldsEmpty raw with
    | true =>
      rw [takeIn_of_fieldsEmpty hfilled, hrecords, Bool.not_true, if_neg Bool.false_ne_true,
        List.append_nil]
    | false =>
      have hfilledRows : ∀ other ∈ filledRows raws, IsRaw outline (.record other) := by
        intro other hother
        exact hraws other (List.mem_filter.mp hother).1
      rw [Bool.not_false, if_pos rfl]
      exact takeIn_eq_map_build hd hends hfilledRows hraw hfilled hrecords

/-- What a worksheet compiles to, from all its filled rows at once. -/
theorem records_eq_map_build {rules : Rules} {sheet : Worksheet} {schema : Schema}
    {compiled : CompiledSheet} (h : Schema.ofSheet rules sheet = .ok schema)
    (hcompiled : ofWorksheet rules sheet = .ok compiled) (hplain : schema.Plain) :
    ∃ raws, (dataRows schema).mapM (Record.ofRow sheet schema.columns) = .ok raws ∧
      compiled.records = (group ⟨schema, rules.settings⟩ "" (filledRows raws)).map
        (build ⟨schema, rules.settings⟩ "") := by
  have hlawful := Schema.lawful_ofSheet h
  have hd := Layout.declares_of_lawful hlawful rules.settings
  obtain ⟨raws, hraws, hrecords⟩ := ofWorksheet_eq_ok h hcompiled
  refine ⟨raws, hraws, ?_⟩
  rw [hrecords]
  have hall := isRaw_of_rawRows hraws
  cases raws with
  | nil => rfl
  | cons raw rest =>
    have hends := Layout.endDefaults_of_plain hlawful hplain (hall raw List.mem_cons_self)
      rules.settings
    exact foldl_takeIn_eq_map_build hd hends hall

/-- The records of the inventory are made from two groups of rows. -/
theorem inventory_records_eq_map_build : ∃ rules schema compiled raws,
    Schema.ofSheet rules inventory.worksheet = .ok schema ∧ schema.Plain ∧
    ofWorksheet rules inventory.worksheet = .ok compiled ∧
    compiled.records = inventoryRecords ∧
    compiled.records = (group ⟨schema, rules.settings⟩ "" (filledRows raws)).map
      (build ⟨schema, rules.settings⟩ "") := by
  obtain ⟨rules, schema, compiled, -, hschema, hcompiled, hcolumns, hrecords⟩ := inventory_compiles
  have hplain : schema.Plain := by
    have hsegments : ∀ segments ∈ schema.columns.map Column.segments, ∀ segment ∈ segments,
        FieldPath.separator ∉ segment.toList := by
      rw [hcolumns]
      decide +kernel
    exact List.forall_mem_map.mp hsegments
  obtain ⟨raws, -, hbuild⟩ := records_eq_map_build hschema hcompiled hplain
  exact ⟨rules, schema, compiled, raws, hschema, hplain, hcompiled, hrecords, hbuild⟩

end CompiledSheet

end SheetCompiler
