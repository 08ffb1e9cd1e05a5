import SheetCompiler.Proofs.PrunedRecords

/-!
# Values that conform to a header

`Layout.FieldFits` says what may stand in a field of a finished record, and `Layout.ItemFits` what
may stand in it by itself or as an item of its list.  A field of list type holds nothing or some
items; any other field holds nothing or one value.  Nothing empty is kept: no empty text, no record
without anything in it, no list without items.  A record has the fields that the outline names, in
its order, and texts stand only where paths of the outline end.

A shaped raw value fits (`itemFits_shaped`).  Neither pruning nor shaping changes
what fits (`prune_of_fits`, `shape_of_fits`).
-/

namespace SheetCompiler

namespace Layout

mutual

/-- What a field holds in a record that conforms to the header. -/
inductive FieldFits (layout : Layout) : String → Outline → Value → Prop
  | nothing {path : String} {outline : Outline} : FieldFits layout path outline .null
  | single {path : String} {outline : Outline} {value : Value}
      (hlist : layout.isList path = false) (hvalue : ItemFits layout path outline value) :
      FieldFits layout path outline value
  | several {path : String} {outline : Outline} {items : List Value}
      (hlist : layout.isList path = true) (hne : items ≠ [])
      (hitems : ∀ item ∈ items, ItemFits layout path outline item) :
      FieldFits layout path outline (.list items)

/-- A filled cell, or a record with the fields of the outline in which something is filled. -/
inductive ItemFits (layout : Layout) : String → Outline → Value → Prop
  | cell {path : String} {outline : Outline} {text : String} (hleaf : outline.IsLeaf)
      (htext : text.isEmpty = false) : ItemFits layout path outline (.scalar text)
  | record {path : String} {outline : Outline} {fields : List (String × Value)}
      (hnames : Entries.names fields = outline.names)
      (hfilled : Value.fieldsEmpty fields = false)
      (hfields : ∀ field ∈ fields,
        FieldFits layout (FieldPath.extend path field.1) (outline.below field.1) field.2) :
      ItemFits layout path outline (.record fields)

end

variable {layout : Layout} {path : String} {outline : Outline}

theorem ItemFits.names_eq {fields : Record} (h : layout.ItemFits path outline (.record fields)) :
    Entries.names fields = outline.names := by
  cases h with
  | record hnames hfilled hfields => exact hnames

theorem ItemFits.filled {fields : Record} (h : layout.ItemFits path outline (.record fields)) :
    Value.fieldsEmpty fields = false := by
  cases h with
  | record hnames hfilled hfields => exact hfilled

theorem ItemFits.field {fields : Record} (h : layout.ItemFits path outline (.record fields))
    {field : String × Value} (hfield : field ∈ fields) :
    layout.FieldFits (FieldPath.extend path field.1) (outline.below field.1) field.2 := by
  cases h with
  | record hnames hfilled hfields => exact hfields field hfield

/-- A list does not fit by itself. -/
theorem ItemFits.not_list {items : List Value} : ¬layout.ItemFits path outline (.list items) := by
  intro h
  cases h

theorem ItemFits.isNull {value : Value} (h : layout.ItemFits path outline value) :
    value.isNull = false := by
  cases h <;> rfl

/-- A field of list type holds nothing or some items. -/
theorem FieldFits.items {value : Value} (h : layout.FieldFits path outline value)
    (hlist : layout.isList path = true) : value = .null ∨ ∃ items, value = .list items ∧
      items ≠ [] ∧ ∀ item ∈ items, layout.ItemFits path outline item := by
  cases h with
  | nothing => exact Or.inl rfl
  | single hsingle hvalue =>
    rw [hlist] at hsingle
    cases hsingle
  | several _ hne hitems => exact Or.inr ⟨_, rfl, hne, hitems⟩

/-- The last item of a list that fits. -/
theorem FieldFits.of_lastItem {slot item : Value} (h : layout.FieldFits path outline slot)
    (hlist : layout.isList path = true) (hitem : slot.lastItem? = some item) :
    layout.ItemFits path outline item := by
  rcases h.items hlist with rfl | ⟨items, rfl, -, hitems⟩
  · cases hitem
  · exact hitems item (List.mem_of_getLast? hitem)

end Layout

namespace Record

open Value (IsRaw)
open Layout (FieldFits ItemFits)

variable {layout : Layout} {path : String} {outline : Outline}

/-! ## Shaped raw values -/

theorem fieldFits_wrapAt {value : Value} (h : IsRaw outline value)
    (hitem : value.isEmpty = false → layout.ItemFits path outline (shaped layout path value)) :
    layout.FieldFits path outline (wrapAt layout path (shaped layout path value)) := by
  rw [wrapAt_shaped h]
  by_cases hempty : value.isEmpty = true
  · rw [if_pos hempty]
    exact .nothing
  · rw [if_neg hempty]
    rw [Bool.not_eq_true] at hempty
    by_cases hlist : layout.isList path = true
    · rw [if_pos hlist]
      refine .several hlist (List.cons_ne_nil _ _) ?_
      intro item hmem
      rw [List.mem_singleton.mp hmem]
      exact hitem hempty
    · rw [if_neg hlist]
      exact .single (Bool.not_eq_true _ ▸ hlist) (hitem hempty)

/-- The shape of a raw value fits by itself, unless the value is empty. -/
theorem itemFits_shaped {value : Value} (h : IsRaw outline value)
    (hfilled : value.isEmpty = false) :
    layout.ItemFits path outline (shaped layout path value) := by
  induction h generalizing path with
  | @cell _ value hleaf hcell =>
    cases value with
    | null => cases hfilled
    | scalar text =>
      rw [shaped]
      exact .cell hleaf hcell
    | record fields => exact hcell.elim
    | list items => exact hcell.elim
  | @record _ fields hbranch hnames hfields ih =>
    have hraw := IsRaw.record hbranch hnames hfields
    rw [shaped_record hraw hfilled]
    refine .record ?_ ?_ ?_
    · rw [names_shapedFields, hnames]
    · rw [fieldsEmpty_shapedFields hraw, ← Value.isEmpty_record, hfilled]
    · rw [shapedFields_eq_map, List.forall_mem_map]
      intro field hfield
      exact fieldFits_wrapAt (hfields field hfield) (ih field hfield)

/-! ## What neither pruning nor shaping changes -/

/-- What fits is pruned. -/
theorem isPruned_of_fits (layout : Layout) (value : Value) :
    (∀ path outline, layout.FieldFits path outline value → value.IsPruned) ∧
      ∀ path outline, layout.ItemFits path outline value → value.IsPruned := by
  induction value using Value.treeInduction with
  | null => exact ⟨fun _ _ _ => Value.isPruned_null, fun _ _ _ => Value.isPruned_null⟩
  | scalar text =>
    exact ⟨fun _ _ _ => Value.isPruned_scalar text, fun _ _ _ => Value.isPruned_scalar text⟩
  | record fields ih =>
    have hitem : ∀ path outline, layout.ItemFits path outline (.record fields) →
        (Value.record fields).IsPruned := fun path outline h =>
      Value.isPruned_record h.filled fun field hfield => (ih field hfield).1 _ _ (h.field hfield)
    refine ⟨fun path outline h => ?_, hitem⟩
    cases h with
    | single hlist hvalue => exact hitem path outline hvalue
  | list items ih =>
    refine ⟨fun path outline h => ?_, fun path outline h => absurd h ItemFits.not_list⟩
    cases h with
    | single hlist hvalue => exact absurd hvalue ItemFits.not_list
    | several hlist hne hitems =>
      refine Value.isPruned_list (fun hnull => ?_) fun item hitem =>
        (ih item hitem).2 _ _ (hitems item hitem)
      cases (hitems _ hnull).isNull

/-- Pruning finds nothing to drop in a record that fits. -/
theorem prune_of_fits {record : Record} (h : layout.ItemFits path outline (.record record)) :
    prune record = record :=
  prune_of_isPruned fun _ hfield => ((isPruned_of_fits layout _).2 path outline h).field hfield

theorem shaped_of_fits (layout : Layout) (value : Value) :
    (∀ path outline, layout.Declares path outline → layout.FieldFits path outline value →
      Typed layout path value ∧ wrapAt layout path (shaped layout path value) = value) ∧
    ∀ path outline, layout.Declares path outline → layout.ItemFits path outline value →
      Typed layout path value ∧ shaped layout path value = value := by
  induction value using Value.treeInduction with
  | null =>
    have hnull : ∀ path, wrapAt layout path .null = .null := fun path => by
      rw [wrapAt]
      split <;> rfl
    refine ⟨fun path _ _ _ => ⟨.leaf (by simp), by rw [shaped, hnull]⟩, fun _ _ _ h => ?_⟩
    cases h.isNull
  | scalar text =>
    have hitem : ∀ path, Typed layout path (.scalar text) ∧
        shaped layout path (.scalar text) = .scalar text :=
      fun path => ⟨.leaf (by simp), by rw [shaped]⟩
    refine ⟨fun path outline _ h => ?_, fun path _ _ _ => hitem path⟩
    cases h with
    | single hlist hvalue =>
      rw [(hitem path).2, wrapAt, hlist, if_neg Bool.false_ne_true]
      exact ⟨(hitem path).1, rfl⟩
  | record fields ih =>
    have hitem : ∀ path outline, layout.Declares path outline →
        layout.ItemFits path outline (.record fields) →
        Typed layout path (.record fields) ∧
          shaped layout path (.record fields) = .record fields := by
      intro path outline hd h
      have hfields : ∀ field ∈ fields, _ := fun field hfield =>
        (ih field hfield).1 _ _ (hd.below field.1) (h.field hfield)
      have hsame : shapedFields layout path fields = fields := by
        rw [shapedFields_eq_map, List.map_congr_left (g := id), List.map_id]
        intro field hfield
        rw [(hfields field hfield).2, id_eq]
      refine ⟨.record (fun field hfield => hd.type ?_) fun field hfield =>
        (hfields field hfield).1, ?_⟩
      · rw [← h.names_eq]
        exact Entries.mem_names_of_mem hfield
      · rw [shaped, hsame, Value.collapse, h.filled, if_neg Bool.false_ne_true]
    refine ⟨fun path outline hd h => ?_, hitem⟩
    cases h with
    | single hlist hvalue =>
      obtain ⟨htyped, hshaped⟩ := hitem path outline hd hvalue
      rw [hshaped, wrapAt, hlist, if_neg Bool.false_ne_true]
      exact ⟨htyped, rfl⟩
  | list items ih =>
    refine ⟨fun path outline _ h => ?_, fun path outline _ h => absurd h ItemFits.not_list⟩
    cases h with
    | single hlist hvalue => exact absurd hvalue ItemFits.not_list
    | several hlist hne hitems =>
      refine ⟨.leaf (by simp), ?_⟩
      rw [shaped, wrapAt, if_pos hlist, Value.wrap_list]

/-- A record that fits is in shape already. -/
theorem shape_of_fits {record : Record} (hd : layout.Declares path outline)
    (h : layout.ItemFits path outline (.record record)) :
    shape layout path record = .done record := by
  obtain ⟨htyped, hshaped⟩ := (shaped_of_fits layout _).2 path outline hd h
  rw [shape_of_typed htyped]
  rw [shaped, Value.collapse] at hshaped
  split at hshaped
  · cases hshaped
  · rw [Value.record.inj hshaped]

end Record

end SheetCompiler
