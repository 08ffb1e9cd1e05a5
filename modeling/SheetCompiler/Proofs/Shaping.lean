import SheetCompiler.Proofs.Declarations
import SheetCompiler.Record.Continuation

/-!
# Shaping and filling raw values

Shaping stops only at a field without a type.  Where every field on the way has one (`Typed`), it is
the plain function `shaped`, and on raw values that function has a short description: what is empty
becomes nothing, and what is not keeps everything in it (`wrapAt_shaped`).

Filling keeps a raw value raw (`isRaw_fillField`), so the fields of a new record and the items of a
list are shaped raw values, whichever of them had defaults to take.
-/

namespace SheetCompiler

/-- Induction over the tree of a value. -/
@[elab_as_elim]
theorem Value.treeInduction {motive : Value → Prop} (null : motive .null)
    (scalar : ∀ text, motive (.scalar text))
    (record : ∀ fields, (∀ field ∈ fields, motive field.2) → motive (.record fields))
    (list : ∀ items, (∀ item ∈ items, motive item) → motive (.list items)) (value : Value) :
    motive value :=
  @Value.rec motive (fun fields => ∀ field ∈ fields, motive field.2)
    (fun items => ∀ item ∈ items, motive item) (fun field => motive field.2)
    null scalar record list
    (by simp)
    (fun field rest hfield hrest => List.forall_mem_cons.mpr ⟨hfield, hrest⟩)
    (by simp)
    (fun item rest hitem hrest => List.forall_mem_cons.mpr ⟨hitem, hrest⟩)
    (fun _ _ hvalue => hvalue)
    value

namespace Record

open Value (IsRaw)

variable {layout : Layout} {path : String} {outline : Outline}

/-! ## The shape, where every field has a type -/

/-- What a field holds when its value is in shape: a list, if the field is one. -/
def wrapAt (layout : Layout) (path : String) (value : Value) : Value :=
  if layout.isList path then value.wrap else value

mutual

/-- The shape of a value, the wrapping apart. -/
def shaped (layout : Layout) (path : String) : Value → Value
  | .record fields => Value.collapse (.record (shapedFields layout path fields))
  | .null => .null
  | .scalar text => .scalar text
  | .list items => .list items

/-- The shape of the fields below a path. -/
def shapedFields (layout : Layout) (path : String) : List (String × Value) → Record
  | [] => []
  | (name, value) :: rest =>
    (name, wrapAt layout (FieldPath.extend path name)
      (shaped layout (FieldPath.extend path name) value)) :: shapedFields layout path rest

end

theorem shapedFields_eq_map (layout : Layout) (path : String) (fields : List (String × Value)) :
    shapedFields layout path fields = fields.map fun field =>
      (field.1, wrapAt layout (FieldPath.extend path field.1)
        (shaped layout (FieldPath.extend path field.1) field.2)) := by
  induction fields with
  | nil => simp [shapedFields]
  | cons field rest ih => simp [shapedFields, ih]

@[simp] theorem names_shapedFields (layout : Layout) (path : String)
    (fields : List (String × Value)) :
    Entries.names (shapedFields layout path fields) = Entries.names fields := by
  simp [shapedFields_eq_map, Entries.names, Function.comp_def]

/-- Every field that is reached through records has a type. -/
inductive Typed (layout : Layout) : String → Value → Prop
  | leaf {path : String} {value : Value} (hvalue : ∀ fields, value ≠ .record fields) :
      Typed layout path value
  | record {path : String} {fields : List (String × Value)}
      (htypes : ∀ field ∈ fields, (layout.type? (FieldPath.extend path field.1)).isSome)
      (hfields : ∀ field ∈ fields, Typed layout (FieldPath.extend path field.1) field.2) :
      Typed layout path (.record fields)

theorem shape_of_forall {fields : List (String × Value)}
    (htypes : ∀ field ∈ fields, (layout.type? (FieldPath.extend path field.1)).isSome)
    (hfields : ∀ field ∈ fields, shapeValue layout (FieldPath.extend path field.1) field.2 =
      .done (shaped layout (FieldPath.extend path field.1) field.2)) :
    shape layout path fields = .done (shapedFields layout path fields) := by
  induction fields with
  | nil => rw [shape, shapedFields]
  | cons field rest ih =>
    obtain ⟨tag, htag⟩ := Option.isSome_iff_exists.mp (htypes field List.mem_cons_self)
    have hrest := ih (fun other hother => htypes other (List.mem_cons_of_mem _ hother))
      (fun other hother => hfields other (List.mem_cons_of_mem _ hother))
    rw [shape, shapedFields]
    simp only [htag, hfields field List.mem_cons_self, hrest, Progress.map_done, wrapAt,
      Layout.isList_of_type? htag]

theorem shapeValue_of_typed {value : Value} (h : Typed layout path value) :
    shapeValue layout path value = .done (shaped layout path value) := by
  induction h with
  | leaf hvalue =>
    cases ‹Value› with
    | null => rw [shapeValue, shaped]
    | scalar text => rw [shapeValue, shaped]
    | record fields => exact absurd rfl (hvalue fields)
    | list items => rw [shapeValue, shaped]
  | record htypes _ ih => rw [shapeValue, shape_of_forall htypes ih, shaped]

theorem shape_of_typed {fields : List (String × Value)} (h : Typed layout path (.record fields)) :
    shape layout path fields = .done (shapedFields layout path fields) := by
  cases h with
  | leaf hvalue => exact absurd rfl (hvalue fields)
  | record htypes hfields =>
    exact shape_of_forall htypes fun field hfield => shapeValue_of_typed (hfields field hfield)

theorem typed_of_shape {fields shapedRow : Record}
    (hfields : ∀ field ∈ fields, ∀ (inner : String) (value : Value),
      shapeValue layout inner field.2 = .done value → Typed layout inner field.2)
    (h : shape layout path fields = .done shapedRow) : Typed layout path (.record fields) := by
  have hall : ∀ field ∈ fields, (layout.type? (FieldPath.extend path field.1)).isSome ∧
      Typed layout (FieldPath.extend path field.1) field.2 := by
    induction fields generalizing shapedRow with
    | nil => simp
    | cons field rest ih =>
      rw [shape] at h
      split at h
      · cases h
      · rename_i tag htag
        split at h
        · cases h
        · rename_i value hvalue
          rw [List.forall_mem_cons]
          refine ⟨⟨?_, hfields _ List.mem_cons_self _ _ hvalue⟩, ?_⟩
          · rw [htag]
            rfl
          · cases hrest : shape layout path rest with
            | stopped untyped left => rw [hrest] at h; cases h
            | done tail =>
              exact ih (fun other hother => hfields other (List.mem_cons_of_mem _ hother)) hrest
  exact .record (fun field hfield => (hall field hfield).1)
    fun field hfield => (hall field hfield).2

/-- A value has a shape only if every field on the way has a type. -/
theorem typed_of_shapeValue (value : Value) : ∀ (path : String) (out : Value),
    shapeValue layout path value = .done out → Typed layout path value := by
  induction value using Value.treeInduction with
  | null => exact fun _ _ _ => .leaf fun _ h => Value.noConfusion h
  | scalar text => exact fun _ _ _ => .leaf fun _ h => Value.noConfusion h
  | list items => exact fun _ _ _ => .leaf fun _ h => Value.noConfusion h
  | record fields ih =>
    intro path out h
    rw [shapeValue] at h
    split at h
    · rename_i shapedRow hshape
      exact typed_of_shape ih hshape
    · cases h

/-- The fields of a raw record have types. -/
theorem typed_of_isRaw {value : Value} (hd : layout.Declares path outline)
    (h : IsRaw outline value) : Typed layout path value := by
  induction h generalizing path with
  | cell hleaf hcell =>
    exact .leaf fun fields hfields => by rw [hfields] at hcell; exact hcell
  | record hbranch hnames hfields ih =>
    refine .record ?_ ?_
    · intro field hfield
      have hname := Entries.mem_names_of_mem hfield
      rw [hnames] at hname
      exact hd.type hname
    · intro field hfield
      exact ih field hfield (hd.below field.1)

/-! ## Emptiness of raw values -/

theorem isEmpty_collapse (value : Value) : value.collapse.isEmpty = value.isEmpty := by
  cases value with
  | record fields =>
    rw [Value.collapse]
    split
    · rename_i h
      rw [Value.isEmpty_null, Value.isEmpty_record, h]
    · rfl
  | null => rfl
  | scalar text => rfl
  | list items => rfl

/-- Wrapping keeps emptiness as long as what is empty is nothing: a list of one empty item would
not be empty. -/
theorem isEmpty_wrapAt {value : Value} (h : value.isEmpty = true → value = .null) :
    (wrapAt layout path value).isEmpty = value.isEmpty := by
  rw [wrapAt]
  split
  · cases value with
    | null => rfl
    | list items => rfl
    | scalar text =>
      rw [Value.wrap_scalar, Value.isEmpty_list]
      exact (Bool.eq_false_iff.mpr fun hempty => Value.noConfusion (h hempty)).symm
    | record fields =>
      rw [Value.wrap_record, Value.isEmpty_list]
      exact (Bool.eq_false_iff.mpr fun hempty => Value.noConfusion (h hempty)).symm
  · rfl

theorem fieldsEmpty_congr {fields : List (String × Value)} {f : String × Value → Value}
    (h : ∀ field ∈ fields, (f field).isEmpty = field.2.isEmpty) :
    Value.fieldsEmpty (fields.map fun field => (field.1, f field)) =
      Value.fieldsEmpty fields := by
  induction fields with
  | nil => rfl
  | cons field rest ih =>
    rw [List.map_cons, Value.fieldsEmpty_cons, Value.fieldsEmpty_cons,
      h field List.mem_cons_self, ih fun other hother => h other (List.mem_cons_of_mem _ hother)]

theorem isEmpty_shaped_and {value : Value} (h : IsRaw outline value) :
    (shaped layout path value).isEmpty = value.isEmpty ∧
      (value.isEmpty = true → shaped layout path value = .null) := by
  induction h generalizing path with
  | @cell _ value hleaf hcell =>
    cases value with
    | null => exact ⟨by rw [shaped], fun _ => by rw [shaped]⟩
    | scalar text =>
      refine ⟨by rw [shaped], fun hempty => ?_⟩
      rw [Value.isEmpty_scalar, show text.isEmpty = false from hcell] at hempty
      cases hempty
    | record fields => exact hcell.elim
    | list items => exact hcell.elim
  | @record _ fields hbranch hnames hfields ih =>
    have hsame : Value.fieldsEmpty (shapedFields layout path fields) =
        Value.fieldsEmpty fields := by
      rw [shapedFields_eq_map]
      refine fieldsEmpty_congr fun field hfield => ?_
      obtain ⟨hempty, hnull⟩ := @ih field hfield (FieldPath.extend path field.1)
      rw [isEmpty_wrapAt fun h => hnull (hempty ▸ h), hempty]
    refine ⟨?_, fun hempty => ?_⟩
    · rw [shaped, isEmpty_collapse, Value.isEmpty_record, Value.isEmpty_record, hsame]
    · rw [Value.isEmpty_record] at hempty
      rw [shaped, Value.collapse, if_pos (hsame.trans hempty)]

theorem isEmpty_shaped {value : Value} (h : IsRaw outline value) :
    (shaped layout path value).isEmpty = value.isEmpty := (isEmpty_shaped_and h).1

/-- A raw value in which nothing is filled has nothing as its shape. -/
theorem shaped_of_isEmpty {value : Value} (h : IsRaw outline value) (hempty : value.isEmpty) :
    shaped layout path value = .null := (isEmpty_shaped_and h).2 hempty

theorem isEmpty_wrapAt_shaped {value : Value} (h : IsRaw outline value) :
    (wrapAt layout path (shaped layout path value)).isEmpty = value.isEmpty := by
  rw [isEmpty_wrapAt fun hempty => shaped_of_isEmpty h (isEmpty_shaped h ▸ hempty),
    isEmpty_shaped h]

theorem fieldsEmpty_shapedFields {fields : Record} (h : IsRaw outline (.record fields)) :
    Value.fieldsEmpty (shapedFields layout path fields) = Value.fieldsEmpty fields := by
  rw [shapedFields_eq_map]
  exact fieldsEmpty_congr fun field hfield => isEmpty_wrapAt_shaped (h.field hfield)

/-- A raw record in which something is filled keeps its fields. -/
theorem shaped_record {fields : Record} (h : IsRaw outline (.record fields))
    (hfilled : Value.fieldsEmpty fields = false) :
    shaped layout path (.record fields) = .record (shapedFields layout path fields) := by
  rw [shaped, Value.collapse, if_neg]
  rw [fieldsEmpty_shapedFields h, hfilled]
  exact Bool.false_ne_true

/-- A field of a shaped raw record: nothing, the shape of the raw value, or a list of just that. -/
theorem wrapAt_shaped {value : Value} (h : IsRaw outline value) :
    wrapAt layout path (shaped layout path value) =
      if value.isEmpty then .null
      else if layout.isList path then .list [shaped layout path value]
      else shaped layout path value := by
  by_cases hempty : value.isEmpty = true
  · rw [if_pos hempty, shaped_of_isEmpty h hempty, wrapAt]
    split <;> rfl
  · rw [if_neg hempty, wrapAt]
    split
    · cases h with
      | cell hleaf hcell =>
        cases value with
        | null => exact absurd rfl hempty
        | scalar text => rw [shaped, Value.wrap_scalar]
        | record fields => exact hcell.elim
        | list items => exact hcell.elim
      | record hbranch hnames hfields =>
        rw [Value.isEmpty_record, Bool.not_eq_true] at hempty
        rw [shaped_record (.record hbranch hnames hfields) hempty, Value.wrap_record]
    · rfl

/-! ## Filling -/

/-- Filling makes no records. -/
theorem fillField_ne_record {value : Value} (h : ∀ fields, value ≠ .record fields)
    (fields : Record) : fillField layout path value ≠ .record fields := by
  intro hfields
  cases value with
  | null => rw [fillField] at hfields; split at hfields <;> cases hfields
  | record own => exact h own rfl
  | scalar text =>
    rw [fillField] at hfields
    split at hfields
    · rw [Value.fillLeaf] at hfields
      split at hfields <;> cases hfields
    · cases hfields
  | list items =>
    rw [fillField] at hfields
    split at hfields
    · match items, hfields with
      | [], hfields => cases hfields
      | [item], hfields => rw [Value.fillLeaf] at hfields; split at hfields <;> cases hfields
      | _ :: _ :: _, hfields => cases hfields
    · cases hfields

theorem typed_fill {fields : Record}
    (htypes : ∀ field ∈ fields, (layout.type? (FieldPath.extend path field.1)).isSome)
    (hfields : ∀ field ∈ fields, Typed layout (FieldPath.extend path field.1)
      (fillField layout (FieldPath.extend path field.1) field.2)) :
    Typed layout path (.record (fill layout path fields)) := by
  refine .record ?_ ?_
  · rw [fill_eq_map, List.forall_mem_map]
    exact htypes
  · rw [fill_eq_map, List.forall_mem_map]
    exact hfields

/-- Filling changes leaves only, so the fields on the way keep their types. -/
theorem typed_fillField {value : Value} (h : Typed layout path value) :
    Typed layout path (fillField layout path value) := by
  induction h with
  | leaf hvalue => exact .leaf (fillField_ne_record hvalue)
  | record htypes hfields ih =>
    rw [fillField]
    split
    · exact .record htypes hfields
    · exact typed_fill htypes ih

theorem typed_fillValue {value : Value} (h : Typed layout path value) :
    Typed layout path (fillValue layout path value) := by
  cases h with
  | record htypes hfields =>
    exact typed_fill htypes fun field hfield => typed_fillField (hfields field hfield)
  | leaf hvalue =>
    cases value with
    | record fields => exact absurd rfl (hvalue fields)
    | null => exact typed_fillField (.leaf hvalue)
    | scalar text => exact typed_fillField (.leaf hvalue)
    | list items => exact typed_fillField (.leaf hvalue)

theorem fillLeaf_of_isCell {value : Value} (h : value.IsCell) {text : String}
    (htext : text.isEmpty = false) : (Value.fillLeaf text value).IsCell := by
  cases value with
  | null => exact htext
  | scalar old =>
    rw [Value.fillLeaf, if_neg (Bool.eq_false_iff.mp h)]
    exact h
  | record fields => exact h.elim
  | list items => exact h.elim

/-- What a cell is filled to. -/
theorem fillField_of_isCell {value : Value} (h : value.IsCell) :
    fillField layout path value =
      match layout.fallback? path with
      | some text => Value.fillLeaf text value
      | none => value := by
  cases value with
  | null => cases hfallback : layout.fallback? path <;> simp only [fillField, hfallback]
  | scalar old => cases hfallback : layout.fallback? path <;> simp only [fillField, hfallback]
  | record fields => exact h.elim
  | list items => exact h.elim

theorem isRaw_fill_of_forall {fields : Record} (h : IsRaw outline (.record fields))
    (hfields : ∀ field ∈ fields, IsRaw (outline.below field.1)
      (fillField layout (FieldPath.extend path field.1) field.2)) :
    IsRaw outline (.record (fill layout path fields)) := by
  refine .record h.branch (by rw [names_fill, h.names_eq]) fun field hfield => ?_
  rw [fill_eq_map, List.mem_map] at hfield
  obtain ⟨old, hold, rfl⟩ := hfield
  exact hfields old hold

/-- Filling keeps a raw value raw, since no default is empty. -/
theorem isRaw_fillField_of_filled
    (hfilled : ∀ inner text, layout.fallback? inner = some text → text.isEmpty = false)
    {value : Value} (h : IsRaw outline value) (path : String) :
    IsRaw outline (fillField layout path value) := by
  induction h generalizing path with
  | cell hleaf hcell =>
    refine .cell hleaf ?_
    rw [fillField_of_isCell hcell]
    split
    · exact fillLeaf_of_isCell hcell (hfilled _ _ ‹_›)
    · exact hcell
  | record hbranch hnames hfields ih =>
    have hraw := IsRaw.record hbranch hnames hfields
    rw [fillField]
    split
    · exact hraw
    · exact isRaw_fill_of_forall hraw fun field hfield => ih field hfield _

theorem isRaw_fillValue_of_filled
    (hfilled : ∀ inner text, layout.fallback? inner = some text → text.isEmpty = false)
    {value : Value} (h : IsRaw outline value) (path : String) :
    IsRaw outline (fillValue layout path value) := by
  have hfield := fun {inner : Outline} {value : Value} (h : IsRaw inner value) path =>
    isRaw_fillField_of_filled hfilled h path
  cases value with
  | record fields => exact isRaw_fill_of_forall h fun field hmem => hfield (h.field hmem) _
  | null => exact hfield h path
  | scalar text => exact hfield h path
  | list items => exact hfield h path

theorem isRaw_fillField {value : Value} (hd : layout.Declares path outline)
    (h : IsRaw outline value) : IsRaw outline (fillField layout path value) :=
  isRaw_fillField_of_filled hd.filled h path

theorem isRaw_fill {fields : Record} (hd : layout.Declares path outline)
    (h : IsRaw outline (.record fields)) : IsRaw outline (.record (fill layout path fields)) :=
  isRaw_fillValue_of_filled hd.filled h path

theorem isRaw_fillValue {value : Value} (hd : layout.Declares path outline)
    (h : IsRaw outline value) : IsRaw outline (fillValue layout path value) :=
  isRaw_fillValue_of_filled hd.filled h path

theorem isEmpty_of_fillField {value : Value} (h : IsRaw outline value)
    (hempty : (fillField layout path value).isEmpty = true) : value.isEmpty = true := by
  induction h generalizing path with
  | @cell _ value hleaf hcell =>
    cases value with
    | null => rfl
    | scalar old =>
      rw [fillField_of_isCell hcell] at hempty
      split at hempty
      · rwa [Value.fillLeaf, if_neg (Bool.eq_false_iff.mp hcell)] at hempty
      · exact hempty
    | record fields => exact hcell.elim
    | list items => exact hcell.elim
  | @record _ fields hbranch hnames hfields ih =>
    rw [fillField] at hempty
    split at hempty
    · exact hempty
    · rw [Value.isEmpty_record, Value.fieldsEmpty_iff, fill_eq_map, List.forall_mem_map] at hempty
      rw [Value.isEmpty_record, Value.fieldsEmpty_iff]
      intro field hfield
      exact ih field hfield (hempty field hfield)

theorem fieldsEmpty_of_fill {fields : Record} (h : IsRaw outline (.record fields))
    (hempty : Value.fieldsEmpty (fill layout path fields) = true) :
    Value.fieldsEmpty fields = true := by
  rw [Value.fieldsEmpty_iff, fill_eq_map, List.forall_mem_map] at hempty
  rw [Value.fieldsEmpty_iff]
  intro field hfield
  exact isEmpty_of_fillField (h.field hfield) (hempty field hfield)

theorem isEmpty_of_fillValue {value : Value} (h : IsRaw outline value)
    (hempty : (fillValue layout path value).isEmpty = true) : value.isEmpty = true := by
  cases value with
  | record fields => exact fieldsEmpty_of_fill h hempty
  | null => exact isEmpty_of_fillField h hempty
  | scalar text => exact isEmpty_of_fillField h hempty
  | list items => exact isEmpty_of_fillField h hempty

/-- Filling empties nothing. -/
theorem isEmpty_fillField {value : Value} (h : IsRaw outline value)
    (hfilled : value.isEmpty = false) : (fillField layout path value).isEmpty = false := by
  rw [← Bool.not_eq_true] at hfilled ⊢
  intro hempty
  exact hfilled (isEmpty_of_fillField h hempty)

theorem isEmpty_fillValue {value : Value} (h : IsRaw outline value)
    (hfilled : value.isEmpty = false) : (fillValue layout path value).isEmpty = false := by
  rw [← Bool.not_eq_true] at hfilled ⊢
  intro hempty
  exact hfilled (isEmpty_of_fillValue h hempty)

end Record

end SheetCompiler
