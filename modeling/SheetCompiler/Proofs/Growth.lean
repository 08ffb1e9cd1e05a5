import SheetCompiler.Proofs.Conformance

/-!
# How a row grows a record

`Record.mergeFields` works through the shaped form of a row, finds each list by its name, and may
stop at a field without a type.  On the records that are ever merged it does something simpler:
`growFields` walks through the fields of the record and of the raw row side by side, and each list
in which the row has something takes it in (`growSlot`).  The list either passes it on to its last
item or gets a further item.

The two agree on records that conform to the header (`merge?_shaped`), and the grown record conforms
as well (`itemFits_growFields`).
-/

namespace SheetCompiler

namespace Record

open Value (IsRaw)
open Layout (FieldFits ItemFits)

variable {layout : Layout} {path : String} {outline : Outline}

/-- Whether a raw record fills list fields only, at a depth where records are merged. -/
def continues (layout : Layout) (path : String) (raw : Record) : Bool :=
  layout.mergesBelow path &&
    raw.all fun field => layout.isList (FieldPath.extend path field.1) || field.2.isEmpty

/-- The item that a raw value makes by itself. -/
def newItem (layout : Layout) (path : String) (raw : Value) : Value :=
  shaped layout path (fillValue layout path raw)

mutual

/-- A list field after it took in a raw value. -/
def growSlot (layout : Layout) (path : String) (slot : Value) : (raw : Value) → Value
  | .record fields =>
    match slot.lastItem? with
    | some (.record last) =>
      if continues layout path fields then
        Value.replaceLast (.record (growFields layout path last fields)) slot
      else Value.addItem (newItem layout path (.record fields)) slot
    | _ => Value.addItem (newItem layout path (.record fields)) slot
  | .null => Value.addItem (newItem layout path .null) slot
  | .scalar text => Value.addItem (newItem layout path (.scalar text)) slot
  | .list items => Value.addItem (newItem layout path (.list items)) slot

/-- A record after its list fields took in what a raw record holds for them. -/
def growFields (layout : Layout) (path : String) (previous : Record) :
    (raw : List (String × Value)) → Record
  | [] => previous
  | (_, value) :: rest =>
    match previous with
    | [] => []
    | (name, slot) :: more =>
      (name, if layout.isList (FieldPath.extend path name) && !value.isEmpty then
        growSlot layout (FieldPath.extend path name) slot value else slot) ::
          growFields layout path more rest

end

/-- A field after it took in what a raw record holds for it. -/
def growField (layout : Layout) (path : String) (slot raw : Value) : Value :=
  if layout.isList path && !raw.isEmpty then growSlot layout path slot raw else slot

theorem growFields_nil (layout : Layout) (path : String) (previous : Record) :
    growFields layout path previous [] = previous := by
  rw [growFields]

theorem growFields_cons (layout : Layout) (path name key : String) (slot value : Value)
    (more rest : Record) :
    growFields layout path ((name, slot) :: more) ((key, value) :: rest) =
      (name, growField layout (FieldPath.extend path name) slot value) ::
        growFields layout path more rest := by
  rw [growFields, growField]

theorem growField_of_isEmpty {slot raw : Value} (h : raw.isEmpty = true) :
    growField layout path slot raw = slot := by
  rw [growField, h, Bool.not_true, Bool.and_false, if_neg Bool.false_ne_true]

theorem growField_of_not_isList {slot raw : Value} (h : layout.isList path = false) :
    growField layout path slot raw = slot := by
  rw [growField, h, Bool.false_and, if_neg Bool.false_ne_true]

theorem growField_of_isList {slot raw : Value} (hlist : layout.isList path = true)
    (hfilled : raw.isEmpty = false) :
    growField layout path slot raw = growSlot layout path slot raw := by
  rw [growField, hlist, hfilled, Bool.not_false, Bool.and_true, if_pos rfl]

/-- What a list field becomes: its last item grew, or it got a further item. -/
theorem growSlot_cases (layout : Layout) (path : String) (slot raw : Value) :
    (∃ last fields, slot.lastItem? = some (.record last) ∧ raw = .record fields ∧
      continues layout path fields = true ∧ growSlot layout path slot raw =
        Value.replaceLast (.record (growFields layout path last fields)) slot) ∨
    ((∀ last fields, slot.lastItem? = some (.record last) → raw = .record fields →
      continues layout path fields = false) ∧
      growSlot layout path slot raw = Value.addItem (newItem layout path raw) slot) := by
  cases raw with
  | null => exact Or.inr ⟨fun _ _ _ h => Value.noConfusion h, by rw [growSlot]⟩
  | scalar text => exact Or.inr ⟨fun _ _ _ h => Value.noConfusion h, by rw [growSlot]⟩
  | list items => exact Or.inr ⟨fun _ _ _ h => Value.noConfusion h, by rw [growSlot]⟩
  | record fields =>
    rw [growSlot]
    split
    · rename_i last hlast
      by_cases hcontinues : continues layout path fields = true
      · rw [if_pos hcontinues]
        exact Or.inl ⟨last, fields, hlast, rfl, hcontinues, rfl⟩
      · rw [if_neg hcontinues]
        refine Or.inr ⟨fun _ _ _ h => ?_, rfl⟩
        rw [← Value.record.inj h]
        exact Bool.not_eq_true _ ▸ hcontinues
    · rename_i hlast
      exact Or.inr ⟨fun last _ h => absurd h (hlast last), rfl⟩

theorem growSlot_of_isCell {raw : Value} (h : raw.IsCell) (slot : Value) :
    growSlot layout path slot raw = Value.addItem (newItem layout path raw) slot := by
  rcases growSlot_cases layout path slot raw with ⟨_, fields, -, rfl, -, -⟩ | ⟨-, hgrown⟩
  · exact h.elim
  · exact hgrown

theorem growSlot_of_not_continues {fields : Record}
    (h : continues layout path fields = false) (slot : Value) :
    growSlot layout path slot (.record fields) =
      Value.addItem (newItem layout path (.record fields)) slot := by
  rcases growSlot_cases layout path slot (.record fields) with
    ⟨_, same, -, hsame, hcontinues, -⟩ | ⟨-, hgrown⟩
  · rw [← Value.record.inj hsame, h] at hcontinues
    cases hcontinues
  · exact hgrown

theorem growSlot_of_continues {slot : Value} {last fields : Record}
    (hlast : slot.lastItem? = some (.record last)) (h : continues layout path fields = true) :
    growSlot layout path slot (.record fields) =
      Value.replaceLast (.record (growFields layout path last fields)) slot := by
  rcases growSlot_cases layout path slot (.record fields) with
    ⟨other, same, hother, hsame, -, hgrown⟩ | ⟨hno, -⟩
  · rw [hlast, Option.some.injEq, Value.record.injEq] at hother
    rw [hgrown, ← hother, ← Value.record.inj hsame]
  · rw [hno last fields hlast rfl] at h
    cases h

/-- A list whose last item is no record gets a further item. -/
theorem growSlot_of_no_lastItem {slot : Value}
    (h : ∀ last, slot.lastItem? ≠ some (.record last)) (raw : Value) :
    growSlot layout path slot raw = Value.addItem (newItem layout path raw) slot := by
  rcases growSlot_cases layout path slot raw with ⟨last, _, hlast, -, -, -⟩ | ⟨-, hgrown⟩
  · exact absurd hlast (h last)
  · exact hgrown

/-- Into nothing a raw value goes as the first item. -/
theorem growSlot_null (layout : Layout) (path : String) (raw : Value) :
    growSlot layout path .null raw = .list [newItem layout path raw] := by
  rcases growSlot_cases layout path .null raw with ⟨_, _, hlast, -, -, -⟩ | ⟨-, hgrown⟩
  · cases hlast
  · rw [hgrown, Value.addItem]

/-! ## Agreement with the merge -/

/-- A list field of a shaped row offers an item when something is filled in it. -/
theorem offersItem_wrapAt_shaped {value : Value} (h : IsRaw outline value) :
    (layout.isList path && (wrapAt layout path (shaped layout path value)).offersItem) =
      (layout.isList path && !value.isEmpty) := by
  cases hlist : layout.isList path with
  | false => rw [Bool.false_and, Bool.false_and]
  | true =>
    rw [wrapAt_shaped h, hlist, if_pos rfl]
    by_cases hempty : value.isEmpty = true
    · rw [if_pos hempty, hempty]
      rfl
    · rw [if_neg hempty, Value.offersItem, isEmpty_shaped h]

/-- A shaped row continues a record exactly when it fills list fields only, and something at all. -/
theorem absorbs_shapedFields {previous raw : Record} (h : IsRaw outline (.record raw))
    (hprevious : Value.fieldsEmpty previous = false) (hraw : Value.fieldsEmpty raw = false) :
    absorbs layout path previous (shapedFields layout path raw) = continues layout path raw := by
  have hall : (shapedFields layout path raw).all (fun field =>
      layout.isList (FieldPath.extend path field.1) || field.2.isEmpty) =
        raw.all fun field => layout.isList (FieldPath.extend path field.1) || field.2.isEmpty := by
    rw [shapedFields_eq_map, List.all_map, Bool.eq_iff_iff, List.all_eq_true, List.all_eq_true]
    refine forall₂_congr fun field hfield => ?_
    rw [Function.comp_apply, isEmpty_wrapAt_shaped (h.field hfield)]
  rw [absorbs, hall, hprevious, Bool.not_false, Bool.true_and, ← continues]
  cases hcontinues : continues layout path raw with
  | false => rw [Bool.false_and]
  | true =>
    rw [Bool.true_and, List.any_eq_true]
    -- some field is filled, and by `hcontinues` it is a list
    obtain ⟨field, hfield, hfilled⟩ : ∃ field ∈ raw, field.2.isEmpty = false := by
      have hsome : ¬ ∀ field ∈ raw, field.2.isEmpty = true := by
        rw [← Value.fieldsEmpty_iff, hraw]
        exact Bool.false_ne_true
      simpa using hsome
    rw [continues, Bool.and_eq_true, List.all_eq_true] at hcontinues
    have hlist := hcontinues.2 field hfield
    rw [hfilled, Bool.or_false] at hlist
    refine ⟨_, shapedFields_eq_map layout path raw ▸ List.mem_map_of_mem hfield, ?_⟩
    show (layout.isList (FieldPath.extend path field.1) && _) = true
    rw [offersItem_wrapAt_shaped (h.field hfield), hlist, hfilled]
    rfl

/-- An item is made of a value whose fields have types. -/
theorem freshItem_of_typed {raw : Value} (h : Typed layout path raw) :
    freshItem layout path raw = .done (newItem layout path raw) := by
  rw [freshItem, shapeItem, shapeValue_of_typed (typed_fillValue h), newItem]

theorem appendItem_of_typed {raw : Value} (h : Typed layout path raw) (slot : Value) :
    appendItem layout path raw slot =
      .done (Value.addItem (newItem layout path raw) slot) := by
  rw [appendItem, freshItem_of_typed h]

theorem appendItem_eq {slot raw : Value} (hd : layout.Declares path outline)
    (h : IsRaw outline raw) :
    appendItem layout path raw slot = .done (Value.addItem (newItem layout path raw) slot) :=
  appendItem_of_typed (typed_of_isRaw hd h) slot

/-- What a row holds unshaped is found under the name of its field, unless that is nothing. -/
theorem rawItem_of_get? {name : String} {raw : Record} {item value : Value}
    (hget : Entries.get? name raw = some value) (hvalue : value ≠ .null) :
    rawItem name raw item = value := by
  rw [rawItem, hget]
  cases value with
  | null => exact absurd rfl hvalue
  | scalar text => rfl
  | record fields => rfl
  | list items => rfl

theorem rawItem_eq {name : String} {raw : Record} {item value : Value}
    (hget : Entries.get? name raw = some value) (hfilled : value.isEmpty = false) :
    rawItem name raw item = value := by
  refine rawItem_of_get? hget ?_
  rintro rfl
  cases hfilled

/-- A field of a row that offers no item to a list is passed over. -/
theorem mergeFields_cons_of_not_offers {raw previous : Record} {name : String} {value : Value}
    {rest : List (String × Value)}
    (h : (layout.isList (FieldPath.extend path name) && value.offersItem) = false) :
    mergeFields layout path raw previous ((name, value) :: rest) =
      mergeFields layout path raw previous rest := by
  cases value with
  | null =>
    rw [mergeFields]
    simp
  | scalar text =>
    rw [mergeFields]
    simp
  | record fields =>
    rw [mergeFields]
    simp
  | list items =>
    cases items with
    | nil =>
      rw [mergeFields]
      simp
    | cons item tail =>
      rw [mergeFields]
      exact if_neg (Bool.eq_false_iff.mp h)

/-- The walk through the fields of a row finds them in the record one after another, so that it is a
walk through both side by side.  `front` are the fields that have been gone through. -/
theorem mergeFields_shapedFields {raw : Record} : ∀ {rest front previous : Record},
    Entries.names previous = Entries.names rest → (Entries.names (front ++ previous)).Nodup →
    (∀ field ∈ rest, Entries.get? field.1 raw = some field.2) →
    (∀ field ∈ rest, ∃ inner, IsRaw inner field.2) →
    (∀ slot ∈ previous, ∀ field ∈ rest, slot.1 = field.1 →
      layout.isList (FieldPath.extend path field.1) = true → field.2.isEmpty = false →
      contribute layout (FieldPath.extend path field.1) field.2 slot.2
        (shaped layout (FieldPath.extend path field.1) field.2) =
          .done (growSlot layout (FieldPath.extend path field.1) slot.2 field.2)) →
    mergeFields layout path raw (front ++ previous) (shapedFields layout path rest) =
      .done (front ++ growFields layout path previous rest)
  | [], front, previous, hnames, _, _, _, _ => by
    rw [shapedFields, mergeFields, growFields_nil]
  | (key, value) :: rest, front, [], hnames, _, _, _, _ => by
    rw [Entries.names_nil, Entries.names_cons] at hnames
    cases hnames
  | (key, value) :: rest, front, (name, slot) :: more, hnames, hnodup, hget, hraw, hgrow => by
    rw [Entries.names_cons, Entries.names_cons, List.cons.injEq] at hnames
    obtain ⟨rfl, hnames⟩ := hnames
    obtain ⟨inner, hvalue⟩ := hraw _ List.mem_cons_self
    have hnotMem : name ∉ Entries.names front := by
      rw [Entries.names, List.map_append] at hnodup
      intro hmem
      exact (List.nodup_append.mp hnodup).2.2 name hmem name List.mem_cons_self rfl
    have hrest : ∀ grown, mergeFields layout path raw (front ++ (name, grown) :: more)
        (shapedFields layout path rest) =
          .done (front ++ (name, grown) :: growFields layout path more rest) := by
      intro grown
      have hfront : Entries.names ((front ++ [(name, grown)]) ++ more) =
          Entries.names (front ++ (name, slot) :: more) := by
        simp [Entries.names]
      have ih := @mergeFields_shapedFields raw rest (front ++ [(name, grown)]) more hnames
        (hfront ▸ hnodup) (fun field hfield => hget field (List.mem_cons_of_mem _ hfield))
        (fun field hfield => hraw field (List.mem_cons_of_mem _ hfield))
        (fun slot hslot field hfield => hgrow slot (List.mem_cons_of_mem _ hslot) field
          (List.mem_cons_of_mem _ hfield))
      simpa using ih
    rw [shapedFields, growFields_cons]
    by_cases hoffers : (layout.isList (FieldPath.extend path name) && !value.isEmpty) = true
    · rw [Bool.and_eq_true, Bool.not_eq_true'] at hoffers
      obtain ⟨hlist, hfilled⟩ := hoffers
      have hgrown := hgrow _ List.mem_cons_self _ List.mem_cons_self rfl hlist hfilled
      have hitem : (!(shaped layout (FieldPath.extend path name) value).isEmpty) = true := by
        rw [isEmpty_shaped hvalue, hfilled]
        rfl
      rw [wrapAt_shaped hvalue, if_neg (Bool.eq_false_iff.mp hfilled), if_pos hlist, mergeFields]
      simp only [hlist, hitem, Bool.true_and, if_true]
      rw [rawItem_eq (hget _ List.mem_cons_self) hfilled, Entries.get?_append_cons hnotMem,
        Option.getD_some, hgrown, growField_of_isList hlist hfilled]
      simp only
      rw [Entries.put_append_cons hnotMem, hrest]
    · rw [Bool.not_eq_true] at hoffers
      rw [mergeFields_cons_of_not_offers (offersItem_wrapAt_shaped hvalue ▸ hoffers), hrest,
        growField, hoffers, if_neg Bool.false_ne_true]

theorem mergeFields_of_contribute {raw previous : Record} (h : IsRaw outline (.record raw))
    (hprevious : layout.ItemFits path outline (.record previous))
    (hgrow : ∀ field ∈ raw, layout.isList (FieldPath.extend path field.1) = true →
      field.2.isEmpty = false → ∀ slot : Value,
        layout.FieldFits (FieldPath.extend path field.1) (outline.below field.1) slot →
        contribute layout (FieldPath.extend path field.1) field.2 slot
          (shaped layout (FieldPath.extend path field.1) field.2) =
            .done (growSlot layout (FieldPath.extend path field.1) slot field.2)) :
    mergeFields layout path raw previous (shapedFields layout path raw) =
      .done (growFields layout path previous raw) := by
  refine @mergeFields_shapedFields layout path raw raw [] previous ?_ ?_ ?_ ?_ ?_
  · rw [hprevious.names_eq, h.names_eq]
  · rw [List.nil_append, hprevious.names_eq]
    exact outline.nodup_names
  · exact fun field hfield => Entries.get?_of_mem h.nodup hfield
  · exact fun field hfield => ⟨_, h.field hfield⟩
  · intro slot hslot field hfield hname hlist hfilled
    have hfits := hprevious.field hslot
    rw [hname] at hfits
    exact hgrow field hfield hlist hfilled slot.2 hfits

theorem contribute_of_lastItem {slot : Value} {last rawFields fields : Record}
    (hlast : slot.lastItem? = some (.record last)) :
    contribute layout path (.record rawFields) slot (.record fields) =
      if absorbs layout path last fields then
        (mergeFields layout path rawFields last fields).map fun merged =>
          Value.replaceLast (.record merged) slot
      else appendItem layout path (.record rawFields) slot := by
  rw [contribute.eq_def]
  simp only [hlast]

theorem contribute_of_no_lastItem {slot raw : Value} {fields : Record}
    (hlast : ∀ last, slot.lastItem? ≠ some (.record last)) :
    contribute layout path raw slot (.record fields) = appendItem layout path raw slot := by
  rw [contribute]
  exact fun last _ h _ => hlast last h

/-- On a list that fits, letting a shaped raw value contribute is growing the list by the value. -/
theorem contribute_shaped {raw : Value} (h : IsRaw outline raw) (hd : layout.Declares path outline)
    (hlist : layout.isList path = true) (hfilled : raw.isEmpty = false) {slot : Value}
    (hslot : layout.FieldFits path outline slot) :
    contribute layout path raw slot (shaped layout path raw) =
      .done (growSlot layout path slot raw) := by
  induction h generalizing path slot with
  | @cell _ raw hleaf hcell =>
    cases raw with
    | null => cases hfilled
    | scalar text => rw [shaped, contribute, appendItem_eq hd (.cell hleaf hcell), growSlot]
    | record fields => exact hcell.elim
    | list items => exact hcell.elim
  | @record outline fields hbranch hnames hfields ih =>
    have hraw := IsRaw.record hbranch hnames hfields
    rw [shaped_record hraw hfilled]
    rcases growSlot_cases layout path slot (.record fields) with
      ⟨last, same, hlast, hsame, hcontinues, hgrown⟩ | ⟨hcontinues, hgrown⟩
    · obtain rfl := Value.record.inj hsame
      have hlastFits := hslot.of_lastItem hlist hlast
      have hmerged : mergeFields layout path fields last (shapedFields layout path fields) =
          .done (growFields layout path last fields) := by
        refine mergeFields_of_contribute hraw hlastFits ?_
        intro field hfield hlist hfilled slot hslot
        exact ih field hfield (hd.below field.1) hlist hfilled hslot
      rw [contribute_of_lastItem hlast, absorbs_shapedFields hraw hlastFits.filled hfilled,
        hcontinues, if_pos rfl, hgrown, hmerged, Progress.map_done]
    · rw [hgrown, ← appendItem_eq hd hraw]
      by_cases hlast : ∃ last, slot.lastItem? = some (.record last)
      · obtain ⟨last, hlast⟩ := hlast
        have hlastFits := hslot.of_lastItem hlist hlast
        rw [contribute_of_lastItem hlast, absorbs_shapedFields hraw hlastFits.filled hfilled,
          hcontinues last fields hlast rfl, if_neg Bool.false_ne_true]
      · exact contribute_of_no_lastItem fun last h => hlast ⟨last, h⟩

/-- On a record that fits, merging a shaped row is growing the record by the raw row. -/
theorem mergeFields_eq_growFields {raw previous : Record} (hd : layout.Declares path outline)
    (h : IsRaw outline (.record raw))
    (hprevious : layout.ItemFits path outline (.record previous)) :
    mergeFields layout path raw previous (shapedFields layout path raw) =
      .done (growFields layout path previous raw) := by
  refine mergeFields_of_contribute h hprevious ?_
  intro field hfield hlist hfilled slot hslot
  exact contribute_shaped (h.field hfield) (hd.below field.1) hlist hfilled hslot

/-- A shaped row continues a record exactly when the raw row fills list fields only. -/
theorem merge?_shaped {raw previous : Record} (hd : layout.Declares "" outline)
    (h : IsRaw outline (.record raw)) (hraw : Value.fieldsEmpty raw = false)
    (hprevious : layout.ItemFits "" outline (.record previous)) :
    merge? layout previous (shapedFields layout "" raw) raw =
      if continues layout "" raw then some (.done (growFields layout "" previous raw))
      else none := by
  rw [merge?, absorbs_shapedFields h hprevious.filled hraw,
    mergeFields_eq_growFields hd h hprevious]

/-! ## Grown records fit -/

theorem names_growFields : ∀ {previous raw : Record},
    Entries.names (growFields layout path previous raw) = Entries.names previous
  | previous, [] => by rw [growFields_nil]
  | [], _ :: _ => by rw [growFields]
  | (name, slot) :: previous, (key, value) :: raw => by
    rw [growFields_cons, Entries.names_cons, Entries.names_cons, names_growFields]

/-- The fields of a grown record are found side by side with those of the raw one. -/
theorem forall_growFields {motive : String × Value → Prop} : ∀ {previous raw : Record},
    Entries.names previous = Entries.names raw →
    (∀ slot ∈ previous, ∀ field ∈ raw, slot.1 = field.1 →
      motive (slot.1, growField layout (FieldPath.extend path slot.1) slot.2 field.2)) →
    ∀ field ∈ growFields layout path previous raw, motive field
  | [], [], _, _ => by simp [growFields_nil]
  | [], _ :: _, hnames, _ => nomatch hnames
  | _ :: _, [], hnames, _ => nomatch hnames
  | (name, slot) :: previous, (key, value) :: raw, hnames, h => by
    rw [Entries.names_cons, Entries.names_cons, List.cons.injEq] at hnames
    rw [growFields_cons, List.forall_mem_cons]
    exact ⟨h _ List.mem_cons_self _ List.mem_cons_self hnames.1,
      forall_growFields hnames.2 fun slot hslot field hfield =>
        h slot (List.mem_cons_of_mem _ hslot) field (List.mem_cons_of_mem _ hfield)⟩

/-- Where names are not repeated, each field takes in what the raw record holds under its name. -/
theorem growFields_eq_map : ∀ {previous raw : Record},
    Entries.names previous = Entries.names raw → (Entries.names raw).Nodup →
    growFields layout path previous raw = previous.map fun slot =>
      (slot.1, growField layout (FieldPath.extend path slot.1) slot.2
        ((Entries.get? slot.1 raw).getD .null))
  | [], [], _, _ => by rw [growFields_nil, List.map_nil]
  | [], _ :: _, hnames, _ => nomatch hnames
  | _ :: _, [], hnames, _ => nomatch hnames
  | (name, slot) :: previous, (key, value) :: raw, hnames, hnodup => by
    rw [Entries.names_cons, Entries.names_cons, List.cons.injEq] at hnames
    obtain ⟨rfl, hnames⟩ := hnames
    rw [Entries.names_cons, List.nodup_cons] at hnodup
    rw [growFields_cons, growFields_eq_map hnames hnodup.2, List.map_cons, Entries.get?, if_pos rfl,
      Option.getD_some]
    congr 1
    refine List.map_congr_left fun other hother => ?_
    have hne : name ≠ other.1 := by
      intro hsame
      have hmem := Entries.mem_names_of_mem hother
      rw [hnames, ← hsame] at hmem
      exact hnodup.1 hmem
    rw [Entries.get?, if_neg hne]

/-- What has a last item is a list that ends with it. -/
theorem eq_list_of_lastItem {slot item : Value} (h : slot.lastItem? = some item) :
    ∃ items, slot = .list (items ++ [item]) ∧
      ∀ grown, Value.replaceLast grown slot = .list (items ++ [grown]) := by
  cases slot with
  | null => cases h
  | scalar text => cases h
  | record fields => cases h
  | list items =>
    obtain ⟨front, rfl⟩ := List.getLast?_eq_some_iff.mp h
    exact ⟨front, rfl, fun grown => by rw [Value.replaceLast, List.dropLast_concat]⟩

theorem isEmpty_addItem (item slot : Value) : (Value.addItem item slot).isEmpty = false := by
  cases slot with
  | null => simp [Value.addItem]
  | scalar text => simp [Value.addItem]
  | record fields => simp [Value.addItem]
  | list items => simp [Value.addItem]

/-- A list that took something in is not empty. -/
theorem isEmpty_growSlot (slot raw : Value) :
    (growSlot layout path slot raw).isEmpty = false := by
  rcases growSlot_cases layout path slot raw with
    ⟨last, fields, hlast, -, -, hgrown⟩ | ⟨-, hgrown⟩
  · obtain ⟨items, -, hreplace⟩ := eq_list_of_lastItem hlast
    rw [hgrown, hreplace, Value.isEmpty_list]
    simp
  · rw [hgrown, isEmpty_addItem]

/-- Growing empties no field. -/
theorem isEmpty_of_growField {slot raw : Value}
    (h : (growField layout path slot raw).isEmpty = true) : slot.isEmpty = true := by
  rw [growField] at h
  split at h
  · rw [isEmpty_growSlot] at h
    cases h
  · exact h

theorem fieldsEmpty_of_growFields : ∀ {previous raw : Record},
    Value.fieldsEmpty (growFields layout path previous raw) = true →
    Entries.names previous = Entries.names raw → Value.fieldsEmpty previous = true
  | [], _, _, _ => rfl
  | _ :: _, [], _, hnames => nomatch hnames
  | (name, slot) :: previous, (key, value) :: raw, h, hnames => by
    rw [Entries.names_cons, Entries.names_cons, List.cons.injEq] at hnames
    rw [growFields_cons, Value.fieldsEmpty_cons, Bool.and_eq_true] at h
    rw [Value.fieldsEmpty_cons, isEmpty_of_growField h.1,
      fieldsEmpty_of_growFields h.2 hnames.2]
    rfl

/-- A raw value with something in it makes an item that fits. -/
theorem itemFits_newItem {raw : Value} (hd : layout.Declares path outline) (h : IsRaw outline raw)
    (hfilled : raw.isEmpty = false) : layout.ItemFits path outline (newItem layout path raw) := by
  have hfill := isRaw_fillValue hd h
  exact itemFits_shaped hfill (isEmpty_fillValue h hfilled)

theorem itemFits_growFields_of_slots {raw previous : Record} (h : IsRaw outline (.record raw))
    (hprevious : layout.ItemFits path outline (.record previous))
    (hslots : ∀ field ∈ raw, layout.isList (FieldPath.extend path field.1) = true →
      field.2.isEmpty = false → ∀ slot : Value,
        layout.FieldFits (FieldPath.extend path field.1) (outline.below field.1) slot →
        layout.FieldFits (FieldPath.extend path field.1) (outline.below field.1)
          (growSlot layout (FieldPath.extend path field.1) slot field.2)) :
    layout.ItemFits path outline (.record (growFields layout path previous raw)) := by
  have hnames : Entries.names previous = Entries.names raw := by
    rw [hprevious.names_eq, h.names_eq]
  have hgrownNames : Entries.names (growFields layout path previous raw) = outline.names := by
    rw [names_growFields, hprevious.names_eq]
  refine .record hgrownNames ?_ ?_
  · rw [← Bool.not_eq_true]
    intro hempty
    have hnone := fieldsEmpty_of_growFields hempty hnames
    rw [hprevious.filled] at hnone
    cases hnone
  · refine forall_growFields hnames ?_
    intro slot hslot field hfield hname
    have hfits := hprevious.field hslot
    rw [hname] at hfits ⊢
    show layout.FieldFits _ (outline.below field.1) (growField _ _ _ _)
    rw [growField]
    split
    · rename_i hoffers
      rw [Bool.and_eq_true, Bool.not_eq_true'] at hoffers
      exact hslots field hfield hoffers.1 hoffers.2 slot.2 hfits
    · exact hfits

theorem fieldFits_addItem {slot item : Value} (hlist : layout.isList path = true)
    (hslot : layout.FieldFits path outline slot) (hitem : layout.ItemFits path outline item) :
    layout.FieldFits path outline (Value.addItem item slot) := by
  rcases hslot.items hlist with rfl | ⟨items, rfl, -, hitems⟩
  · refine .several hlist (List.cons_ne_nil _ _) ?_
    intro other hother
    rw [List.mem_singleton.mp hother]
    exact hitem
  · refine .several hlist (by simp) ?_
    intro other hother
    rcases List.mem_append.mp hother with hold | hnew
    · exact hitems other hold
    · rw [List.mem_singleton.mp hnew]
      exact hitem

theorem fieldFits_replaceLast {slot last item : Value} (hlist : layout.isList path = true)
    (hslot : layout.FieldFits path outline slot) (hlast : slot.lastItem? = some last)
    (hitem : layout.ItemFits path outline item) :
    layout.FieldFits path outline (Value.replaceLast item slot) := by
  obtain ⟨front, rfl, hreplace⟩ := eq_list_of_lastItem hlast
  rw [hreplace]
  rcases hslot.items hlist with hnull | ⟨items, hitems, -, hfits⟩
  · cases hnull
  · obtain rfl := Value.list.inj hitems
    refine .several hlist (by simp) ?_
    intro other hother
    rcases List.mem_append.mp hother with hold | hnew
    · exact hfits other (List.mem_append_left _ hold)
    · rw [List.mem_singleton.mp hnew]
      exact hitem

/-- A list that fits still fits after it took in a raw value. -/
theorem fieldFits_growSlot {raw : Value} (h : IsRaw outline raw) (hd : layout.Declares path outline)
    (hlist : layout.isList path = true) (hfilled : raw.isEmpty = false) {slot : Value}
    (hslot : layout.FieldFits path outline slot) :
    layout.FieldFits path outline (growSlot layout path slot raw) := by
  induction h generalizing path slot with
  | @cell _ raw hleaf hcell =>
    rw [growSlot_of_isCell hcell]
    exact fieldFits_addItem hlist hslot (itemFits_newItem hd (.cell hleaf hcell) hfilled)
  | @record outline fields hbranch hnames hfields ih =>
    have hraw := IsRaw.record hbranch hnames hfields
    rcases growSlot_cases layout path slot (.record fields) with
      ⟨last, same, hlast, hsame, -, hgrown⟩ | ⟨-, hgrown⟩
    · obtain rfl := Value.record.inj hsame
      have hlastFits := hslot.of_lastItem hlist hlast
      have hitem : layout.ItemFits path outline (.record (growFields layout path last fields)) := by
        refine itemFits_growFields_of_slots hraw hlastFits ?_
        intro field hfield hlist hfilled slot hslot
        exact ih field hfield (hd.below field.1) hlist hfilled hslot
      rw [hgrown]
      exact fieldFits_replaceLast hlist hslot hlast hitem
    · rw [hgrown]
      exact fieldFits_addItem hlist hslot (itemFits_newItem hd hraw hfilled)

/-- A record that fits still fits after it took in a raw row. -/
theorem itemFits_growFields {raw previous : Record} (hd : layout.Declares path outline)
    (h : IsRaw outline (.record raw))
    (hprevious : layout.ItemFits path outline (.record previous)) :
    layout.ItemFits path outline (.record (growFields layout path previous raw)) := by
  refine itemFits_growFields_of_slots h hprevious ?_
  intro field hfield hlist hfilled slot hslot
  exact fieldFits_growSlot (h.field hfield) (hd.below field.1) hlist hfilled hslot

end Record

end SheetCompiler
