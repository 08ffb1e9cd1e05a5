import Mathlib.Data.List.Basic
import SheetCompiler.Proofs.Shaping

/-!
# Pruned records

Pruning goes through a record once, from the inside out.  An item that is dropped can leave its list
without items, the record of that list without anything to report, and a list further out without
that record.  One pass settles all of this: what it leaves is pruned throughout (`Value.IsPruned`,
`Record.isPruned_pruneValue`), and pruning changes nothing in such a value
(`Record.pruneValue_of_isPruned`).

Nothing that is filled gets lost.  `Value.texts` are the texts in a value, and a record that becomes
nothing has none in it (`Value.texts_of_isEmpty`).
-/

namespace SheetCompiler

namespace Value

/-! ## The texts in a value -/

mutual

/-- The texts in a value that are not empty, in the order in which they stand there. -/
def texts : Value → List String
  | .null => []
  | .scalar text => if text.isEmpty then [] else [text]
  | .record fields => fieldTexts fields
  | .list items => itemTexts items

/-- The texts in the fields of a record. -/
def fieldTexts : List (String × Value) → List String
  | [] => []
  | (_, value) :: rest => texts value ++ fieldTexts rest

/-- The texts in the items of a list. -/
def itemTexts : List Value → List String
  | [] => []
  | item :: rest => texts item ++ itemTexts rest

end

theorem texts_null : texts .null = [] := by rw [texts]

theorem texts_record (fields : List (String × Value)) :
    texts (.record fields) = fields.flatMap fun field => texts field.2 := by
  rw [texts]
  induction fields with
  | nil => rw [fieldTexts, List.flatMap_nil]
  | cons field rest ih => rw [fieldTexts, ih, List.flatMap_cons]

theorem texts_list (items : List Value) : texts (.list items) = items.flatMap texts := by
  rw [texts]
  induction items with
  | nil => rw [itemTexts, List.flatMap_nil]
  | cons item rest ih => rw [itemTexts, ih, List.flatMap_cons]

/-- There are no texts in an empty value. -/
theorem texts_of_isEmpty {value : Value} (h : value.isEmpty = true) : texts value = [] := by
  induction value using Value.treeInduction with
  | null => rw [texts]
  | scalar text =>
    rw [isEmpty_scalar] at h
    rw [texts, if_pos h]
  | record fields ih =>
    rw [isEmpty_record, fieldsEmpty_iff] at h
    rw [texts_record, List.flatMap_eq_nil_iff]
    exact fun field hfield => ih field hfield (h field hfield)
  | list items ih =>
    rw [isEmpty_list, List.isEmpty_iff] at h
    rw [h, texts_list, List.flatMap_nil]

theorem texts_collapse (value : Value) : texts value.collapse = texts value := by
  cases value with
  | record fields =>
    rw [collapse]
    split
    · rename_i hempty
      rw [texts_null, texts_of_isEmpty ((isEmpty_record fields).trans hempty)]
    · rfl
  | null => rfl
  | scalar text => rfl
  | list items => rfl

theorem isNull_eq_true_iff {value : Value} : value.isNull = true ↔ value = .null := by
  cases value <;> simp [isNull]

/-- Items that are nothing have no texts. -/
theorem texts_filter_isNull (items : List Value) :
    (items.filter fun item => !item.isNull).flatMap texts = items.flatMap texts := by
  induction items with
  | nil => rfl
  | cons item rest ih =>
    by_cases hnull : item.isNull = true
    · rw [List.filter_cons_of_neg (by simp [hnull]), ih, List.flatMap_cons,
        isNull_eq_true_iff.mp hnull, texts_null, List.nil_append]
    · rw [List.filter_cons_of_pos (by simp [hnull]), List.flatMap_cons, ih, List.flatMap_cons]

/-! ## The parts of a value -/

/-- A value is part of itself, and so are the parts of its fields and of its items. -/
inductive IsPart (part : Value) : Value → Prop
  | self : IsPart part part
  | field {fields : List (String × Value)} {field : String × Value} (hfield : field ∈ fields)
      (h : IsPart part field.2) : IsPart part (.record fields)
  | item {items : List Value} {item : Value} (hitem : item ∈ items) (h : IsPart part item) :
      IsPart part (.list items)

/-- No record in the value, itself included, has empty fields only, and no item of a list in it is
nothing. -/
structure IsPruned (value : Value) : Prop where
  filled : ∀ fields, IsPart (.record fields) value → ∃ field ∈ fields, field.2.isEmpty = false
  items : ∀ items, IsPart (.list items) value → .null ∉ items

theorem isPruned_null : IsPruned .null := by
  refine ⟨fun fields h => ?_, fun items h => ?_⟩ <;> cases h

theorem isPruned_scalar (text : String) : IsPruned (.scalar text) := by
  refine ⟨fun fields h => ?_, fun items h => ?_⟩ <;> cases h

theorem isPruned_record {fields : List (String × Value)} (hfilled : fieldsEmpty fields = false)
    (hfields : ∀ field ∈ fields, IsPruned field.2) : IsPruned (.record fields) := by
  refine ⟨fun inner h => ?_, fun items h => ?_⟩
  · cases h with
    | self =>
      rw [Bool.eq_false_iff, ne_eq, fieldsEmpty_iff] at hfilled
      push Not at hfilled
      simpa only [ne_eq, Bool.not_eq_true] using hfilled
    | field hfield h => exact (hfields _ hfield).filled inner h
  · cases h with
    | field hfield h => exact (hfields _ hfield).items items h

theorem isPruned_list {items : List Value} (hnull : .null ∉ items)
    (hitems : ∀ item ∈ items, IsPruned item) : IsPruned (.list items) := by
  refine ⟨fun fields h => ?_, fun inner h => ?_⟩
  · cases h with
    | item hitem h => exact (hitems _ hitem).filled fields h
  · cases h with
    | self => exact hnull
    | item hitem h => exact (hitems _ hitem).items inner h

theorem IsPruned.fieldsEmpty_eq {fields : List (String × Value)} (h : IsPruned (.record fields)) :
    fieldsEmpty fields = false := by
  obtain ⟨field, hfield, hfilled⟩ := h.filled fields .self
  refine Bool.eq_false_iff.mpr fun hempty => ?_
  rw [(fieldsEmpty_iff fields).mp hempty field hfield] at hfilled
  cases hfilled

theorem IsPruned.field {fields : List (String × Value)} (h : IsPruned (.record fields))
    {field : String × Value} (hfield : field ∈ fields) : IsPruned field.2 :=
  ⟨fun inner hinner => h.filled inner (.field hfield hinner),
    fun items hitems => h.items items (.field hfield hitems)⟩

theorem IsPruned.item {items : List Value} (h : IsPruned (.list items)) {item : Value}
    (hitem : item ∈ items) : IsPruned item :=
  ⟨fun fields hfields => h.filled fields (.item hitem hfields),
    fun inner hinner => h.items inner (.item hitem hinner)⟩

end Value

namespace Record

open Value (IsPruned texts)

/-! ## One pass -/

/-- What pruning leaves of a value is pruned. -/
theorem isPruned_pruneValue (value : Value) : (pruneValue value).IsPruned := by
  induction value using Value.treeInduction with
  | null =>
    rw [pruneValue]
    exact Value.isPruned_null
  | scalar text =>
    rw [pruneValue]
    exact Value.isPruned_scalar text
  | record fields ih =>
    rw [pruneValue, Value.collapse]
    split
    · exact Value.isPruned_null
    · rename_i hfilled
      refine Value.isPruned_record (Bool.not_eq_true _ ▸ hfilled) ?_
      rw [prune_eq_map, List.forall_mem_map]
      exact ih
  | list items ih =>
    rw [pruneValue, pruneItems_eq_filter]
    refine Value.isPruned_list (fun hnull => ?_) fun item hitem => ?_
    · cases (List.mem_filter.mp hnull).2
    · obtain ⟨old, hold, rfl⟩ := List.mem_map.mp (List.mem_filter.mp hitem).1
      exact ih old hold

/-- Pruning leaves a record as it is if it leaves each field so. -/
theorem prune_of_forall {record : Record} (h : ∀ field ∈ record, pruneValue field.2 = field.2) :
    prune record = record := by
  rw [prune_eq_map, List.map_congr_left (g := id), List.map_id]
  intro field hfield
  rw [h field hfield, id_eq]

/-- Pruning finds nothing to drop in a pruned value. -/
theorem pruneValue_of_isPruned {value : Value} (h : value.IsPruned) :
    pruneValue value = value := by
  induction value using Value.treeInduction with
  | null => rw [pruneValue]
  | scalar text => rw [pruneValue]
  | record fields ih =>
    have hsame : prune fields = fields :=
      prune_of_forall fun field hfield => ih field hfield (h.field hfield)
    rw [pruneValue, hsame, Value.collapse, if_neg (Bool.eq_false_iff.mp h.fieldsEmpty_eq)]
  | list items ih =>
    have hsame : items.map pruneValue = items := by
      rw [List.map_congr_left (g := id), List.map_id]
      intro item hitem
      rw [ih item hitem (h.item hitem), id_eq]
    rw [pruneValue, pruneItems_eq_filter, hsame, List.filter_eq_self.mpr]
    intro item hitem
    rw [Bool.not_eq_true', Bool.eq_false_iff, ne_eq, Value.isNull_eq_true_iff]
    rintro rfl
    exact h.items items .self hitem

/-- Pruning finds nothing to drop in a record with pruned fields. -/
theorem prune_of_isPruned {record : Record} (h : ∀ field ∈ record, field.2.IsPruned) :
    prune record = record :=
  prune_of_forall fun field hfield => pruneValue_of_isPruned (h field hfield)

/-- Pruning keeps the texts in their order. -/
theorem texts_pruneValue (value : Value) : texts (pruneValue value) = texts value := by
  induction value using Value.treeInduction with
  | null => rw [pruneValue]
  | scalar text => rw [pruneValue]
  | record fields ih =>
    rw [pruneValue, Value.texts_collapse, Value.texts_record, Value.texts_record, prune_eq_map,
      List.flatMap_map]
    exact List.flatMap_congr ih
  | list items ih =>
    rw [pruneValue, pruneItems_eq_filter, Value.texts_list, Value.texts_filter_isNull,
      Value.texts_list, List.flatMap_map]
    exact List.flatMap_congr ih

/-- Pruning settles a record of any shape in one pass.  Afterwards every record inside it has a field
that is not empty, and no item of a list is nothing.  The fields and their order are kept, and so are
all texts in their order, and pruning once more changes nothing. -/
theorem prune_settles (record : Record) :
    (∀ field ∈ prune record, field.2.IsPruned) ∧
    Entries.names (prune record) = Entries.names record ∧
    texts (.record (prune record)) = texts (.record record) ∧
    prune (prune record) = prune record := by
  have hpruned : ∀ field ∈ prune record, field.2.IsPruned := by
    rw [prune_eq_map, List.forall_mem_map]
    exact fun field _ => isPruned_pruneValue field.2
  refine ⟨hpruned, names_prune record, ?_, prune_of_isPruned hpruned⟩
  rw [Value.texts_record, Value.texts_record, prune_eq_map, List.flatMap_map]
  exact List.flatMap_congr fun field _ => texts_pruneValue field.2

/-- A record in which one drop leads to the next, through lists in lists and records in records. -/
def crate : Record :=
  [("Layers", .list [
      .list [.null, .record [("Size", .scalar ""), ("Parts", .record [("Left", .list [])])]],
      .record [("Notes", .list [.null, .scalar "dry"]), ("Seal", .record [])],
      .record [("Notes", .list [.null])]]),
    ("Lid", .record [("Hinges", .list [.list [.null]])]),
    ("Owner", .record [("Name", .null)])]

/-- The inner list has lost its items and is kept, and a record is gone since its list has. -/
theorem crate_prune_settles :
    prune crate =
      [("Layers", .list [.list [], .record [("Notes", .list [.scalar "dry"]), ("Seal", .null)]]),
        ("Lid", .record [("Hinges", .list [.list []])]), ("Owner", .null)] ∧
    (∀ field ∈ prune crate, field.2.IsPruned) ∧
    texts (.record (prune crate)) = ["dry"] ∧ prune (prune crate) = prune crate := by
  obtain ⟨hpruned, -, htexts, hsame⟩ := prune_settles crate
  exact ⟨by decide +kernel, hpruned, htexts.trans (by decide +kernel), hsame⟩

end Record

end SheetCompiler
