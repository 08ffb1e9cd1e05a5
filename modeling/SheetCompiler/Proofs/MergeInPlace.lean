import SheetCompiler.Proofs.Growth

/-!
# Merging in place

`Record.merge?` decides whether a row continues a record before it touches the record.  One can also
work on the record itself and find out on the way: put a placeholder for a missing list, try the
last item, add an item if that one refused, and report at the end whether anything was merged.
`mergeInPlace` does this, and its answer comes with whatever it left of the record.

The two agree (`mergeTargets_eq`, `appendInPlace_eq`), by induction over the item that is merged.  A
refusal therefore leaves the record alone, although fields were written and items were tried before
it was known.

A stop in the middle can only come from a field without a type.  The shape of the row has looked up
the types of the same fields (`typed_of_shapeValue`), and every raw value that is shaped again is a
part of that row (`contribute_done`), so the merge of a row in shape never stops.
-/

namespace SheetCompiler

/-- Writing twice is writing the last value. -/
theorem Entries.put_put {α : Type} (name : String) (value old : α) (entries : Entries α) :
    put name value (put name old entries) = put name value entries := by
  induction entries with
  | nil => simp [put]
  | cons entry rest ih => by_cases h : entry.1 = name <;> simp [put, h, ih]

namespace Value

/-- No record in a value has two fields of one name. -/
inductive Keyed : Value → Prop
  | null : Keyed .null
  | scalar {text : String} : Keyed (.scalar text)
  | record {fields : Record} (hnodup : (Entries.names fields).Nodup)
      (hfields : ∀ field ∈ fields, Keyed field.2) : Keyed (.record fields)
  | list {items : List Value} (hitems : ∀ item ∈ items, Keyed item) : Keyed (.list items)

/-- Induction over the items in the lists of a record. -/
@[elab_as_elim]
theorem itemInduction {motive : Value → Prop} (null : motive .null)
    (scalar : ∀ text, motive (.scalar text)) (list : ∀ items, motive (.list items))
    (record : ∀ fields, (∀ field ∈ fields, ∀ items, field.2 = .list items →
      ∀ item ∈ items, motive item) → motive (.record fields)) (value : Value) : motive value := by
  have hboth : motive value ∧ ∀ items, value = .list items → ∀ item ∈ items, motive item := by
    induction value using Value.treeInduction with
    | null => exact ⟨null, fun _ h => Value.noConfusion h⟩
    | scalar text => exact ⟨scalar text, fun _ h => Value.noConfusion h⟩
    | record fields ih =>
      exact ⟨record fields fun field hfield => (ih field hfield).2, fun _ h => Value.noConfusion h⟩
    | list items ih =>
      refine ⟨list items, fun same hsame item hitem => ?_⟩
      rw [← Value.list.inj hsame] at hitem
      exact (ih item hitem).1
  exact hboth.1

/-- Putting the last item of a list back changes nothing. -/
theorem replaceLast_of_lastItem {slot item : Value} (h : slot.lastItem? = some item) :
    Value.replaceLast item slot = slot := by
  obtain ⟨front, hslot, hreplace⟩ := Record.eq_list_of_lastItem h
  rw [hreplace, hslot]

end Value

/-- What work in place answered, or the untyped path at which it stopped, and what it left. -/
structure Attempt (α β : Type) where
  answer : Except String α
  left : β

namespace Attempt

variable {α β : Type}

/-- Work that gives a fixed answer once it is done. -/
def ofProgress (answer : α) : Progress β → Attempt α β
  | .done value => ⟨.ok answer, value⟩
  | .stopped untyped value => ⟨.error untyped, value⟩

end Attempt

namespace Record

variable {layout : Layout} {path : String}

/-- Whether a record at a path takes nothing in: one of the two records is empty, merging is not
allowed that deep, or the row fills a field that is no list. -/
def refuses (layout : Layout) (path : String) (previous candidate : Record) : Bool :=
  Value.fieldsEmpty previous || Value.fieldsEmpty candidate || !layout.mergesBelow path ||
    candidate.any fun field =>
      !layout.isList (FieldPath.extend path field.1) && !field.2.isEmpty

/-- Whether a field of a row has an item for a list. -/
def offers (layout : Layout) (path : String) (field : String × Value) : Bool :=
  layout.isList (FieldPath.extend path field.1) && field.2.offersItem

/-- Add a further item in place. -/
def appendFresh (layout : Layout) (path : String) (raw slot : Value) : Attempt Unit Value :=
  match freshItem layout path raw with
  | .done item => ⟨.ok (), Value.addItem item slot⟩
  | .stopped untyped _ => ⟨.error untyped, slot⟩

mutual

/-- Merge an item into the last item of a list in place, and add it where that refuses. -/
def appendInPlace (layout : Layout) (path : String) (raw slot : Value) :
    (item : Value) → Attempt Unit Value
  | .record incoming =>
    match slot.lastItem?, raw with
    | some (.record last), .record rawIncoming =>
      let tried : Attempt Bool Record :=
        if refuses layout path last incoming then ⟨.ok false, last⟩
        else mergeTargets layout path rawIncoming 0 last incoming
      let slot := Value.replaceLast (.record tried.left) slot
      match tried.answer with
      | .error untyped => ⟨.error untyped, slot⟩
      | .ok true => ⟨.ok (), slot⟩
      | .ok false => appendFresh layout path raw slot
    | _, _ => appendFresh layout path raw slot
  | .null => appendFresh layout path raw slot
  | .scalar _ => appendFresh layout path raw slot
  | .list _ => appendFresh layout path raw slot

/-- Merge the list fields of a row one after another in place, counting them.  A list that is
missing is put there as nothing before its item is merged. -/
def mergeTargets (layout : Layout) (path : String) (raw : Record) (merged : Nat)
    (previous : Record) : (fields : List (String × Value)) → Attempt Bool Record
  | [] => ⟨.ok (decide (0 < merged)), previous⟩
  | (name, value) :: rest =>
    let inner := FieldPath.extend path name
    match value with
    | .list (item :: _) =>
      if layout.isList inner && !item.isEmpty then
        let slot := (Entries.get? name previous).getD .null
        let opened := Entries.put name slot previous
        let step := appendInPlace layout inner (rawItem name raw item) slot item
        match step.answer with
        | .error untyped => ⟨.error untyped, Entries.put name step.left opened⟩
        | .ok () =>
          mergeTargets layout path raw (merged + 1) (Entries.put name step.left opened) rest
      else mergeTargets layout path raw merged previous rest
    | _ => mergeTargets layout path raw merged previous rest

end

/-- Merge a row into a record in place. -/
def mergeInPlace (layout : Layout) (previous candidate raw : Record) : Attempt Bool Record :=
  if refuses layout "" previous candidate then ⟨.ok false, previous⟩
  else mergeTargets layout "" raw 0 previous candidate

/-! ## Agreement with the merge that decides first -/

theorem exists_item_of_offers {name : String} {value : Value}
    (h : offers layout path (name, value) = true) : ∃ item tail, value = .list (item :: tail) ∧
      (layout.isList (FieldPath.extend path name) && !item.isEmpty) = true := by
  rw [offers] at h
  match value, h with
  | .list (item :: tail), h => exact ⟨item, tail, rfl, h⟩
  | .list [], h => exact absurd h (by simp [Value.offersItem])
  | .null, h => exact absurd h (by simp [Value.offersItem])
  | .scalar text, h => exact absurd h (by simp [Value.offersItem])
  | .record fields, h => exact absurd h (by simp [Value.offersItem])

/-- A row in which some field has an item for a list is not empty. -/
theorem fieldsEmpty_of_offers {candidate : Record}
    (h : (candidate.any (offers layout path)) = true) :
    Value.fieldsEmpty candidate = false := by
  obtain ⟨field, hfield, hoffers⟩ := List.any_eq_true.mp h
  obtain ⟨item, tail, hvalue, -⟩ := exists_item_of_offers hoffers
  rw [← Bool.not_eq_true, Value.fieldsEmpty_iff]
  intro hempty
  have hfilled := hempty field hfield
  rw [hvalue, Value.isEmpty_list] at hfilled
  cases hfilled

/-- A row continues a record if nothing refuses it and some field has an item for a list. -/
theorem absorbs_eq (layout : Layout) (path : String) (previous candidate : Record) :
    absorbs layout path previous candidate =
      (!refuses layout path previous candidate && candidate.any (offers layout path)) := by
  have hall : (candidate.all fun field =>
      layout.isList (FieldPath.extend path field.1) || field.2.isEmpty) =
        !candidate.any fun field =>
          !layout.isList (FieldPath.extend path field.1) && !field.2.isEmpty := by
    rw [List.not_any_eq_all_not]
    simp only [Bool.not_and, Bool.not_not]
  rw [absorbs, hall, refuses]
  cases hoffers : candidate.any (offers layout path) with
  | false =>
    rw [Bool.and_false, Bool.and_eq_false_iff]
    exact Or.inr hoffers
  | true =>
    rw [fieldsEmpty_of_offers hoffers, Bool.and_true, Bool.or_false, Bool.not_or, Bool.not_or,
      Bool.not_not, show candidate.any (fun field =>
        layout.isList (FieldPath.extend path field.1) && field.2.offersItem) = true from hoffers,
      Bool.and_true]

/-- Where no field has an item for a list, nothing is merged. -/
theorem mergeFields_of_no_offers {raw previous : Record} {candidate : List (String × Value)}
    (h : candidate.any (offers layout path) = false) :
    mergeFields layout path raw previous candidate = .done previous := by
  induction candidate with
  | nil => rw [mergeFields]
  | cons field rest ih =>
    rw [List.any_cons, Bool.or_eq_false_iff] at h
    rw [mergeFields_cons_of_not_offers h.1, ih h.2]

theorem appendFresh_eq (layout : Layout) (path : String) (raw slot : Value) :
    appendFresh layout path raw slot =
      Attempt.ofProgress () (appendItem layout path raw slot) := by
  rw [appendFresh, appendItem]
  cases freshItem layout path raw <;> rfl

/-- A field without an item for a list is passed over. -/
theorem mergeTargets_cons_of_not_offers {raw previous : Record} {merged : Nat} {name : String}
    {value : Value} {rest : List (String × Value)} (h : offers layout path (name, value) = false) :
    mergeTargets layout path raw merged previous ((name, value) :: rest) =
      mergeTargets layout path raw merged previous rest := by
  cases value with
  | null =>
    rw [mergeTargets]
    simp
  | scalar text =>
    rw [mergeTargets]
    simp
  | record fields =>
    rw [mergeTargets]
    simp
  | list items =>
    cases items with
    | nil =>
      rw [mergeTargets]
      simp
    | cons item tail =>
      rw [mergeTargets]
      exact if_neg (Bool.eq_false_iff.mp h)

/-- The list fields one after another, if every item is merged as `contribute` says. -/
theorem mergeTargets_eq_of_items {raw : Record} :
    ∀ {candidate : List (String × Value)} {merged : Nat} {previous : Record},
    (∀ field ∈ candidate, ∀ item tail, field.2 = .list (item :: tail) →
      ∀ inner rawValue slot, appendInPlace layout inner rawValue slot item =
        Attempt.ofProgress () (contribute layout inner rawValue slot item)) →
    mergeTargets layout path raw merged previous candidate =
      Attempt.ofProgress (decide (0 < merged) || candidate.any (offers layout path))
        (mergeFields layout path raw previous candidate)
  | [], merged, previous, _ => by
    rw [mergeTargets, mergeFields, List.any_nil, Bool.or_false, Attempt.ofProgress]
  | (name, value) :: rest, merged, previous, hitems => by
    have hrest := fun field hfield => hitems field (List.mem_cons_of_mem _ hfield)
    cases hoffers : offers layout path (name, value) with
    | false =>
      rw [mergeTargets_cons_of_not_offers hoffers, mergeFields_cons_of_not_offers hoffers,
        List.any_cons, hoffers, Bool.false_or, mergeTargets_eq_of_items hrest]
    | true =>
      obtain ⟨item, tail, rfl, hitem⟩ := exists_item_of_offers hoffers
      rw [mergeTargets, mergeFields, List.any_cons, hoffers, Bool.true_or, Bool.or_true]
      simp only [hitem, if_true]
      rw [hitems _ List.mem_cons_self item tail rfl]
      cases contribute layout (FieldPath.extend path name) (rawItem name raw item)
          ((Entries.get? name previous).getD .null) item with
      | stopped untyped left =>
        simp only [Attempt.ofProgress]
        rw [Entries.put_put]
      | done grown =>
        simp only [Attempt.ofProgress]
        rw [Entries.put_put, mergeTargets_eq_of_items hrest, decide_eq_true (Nat.succ_pos merged),
          Bool.true_or]
        rfl

/-- Trying the last item in place and adding a further one is what `contribute` does: if the last
item refused, it was not changed either. -/
theorem appendInPlace_eq (item : Value) : ∀ (path : String) (raw slot : Value),
    appendInPlace layout path raw slot item =
      Attempt.ofProgress () (contribute layout path raw slot item) := by
  induction item using Value.itemInduction with
  | null => intro path raw slot; rw [appendInPlace, contribute, appendFresh_eq]
  | scalar text => intro path raw slot; rw [appendInPlace, contribute, appendFresh_eq]
  | list items => intro path raw slot; rw [appendInPlace, contribute, appendFresh_eq]
  | record incoming ih =>
    intro path raw slot
    have htargets : ∀ {rawIncoming last : Record},
        mergeTargets layout path rawIncoming 0 last incoming =
          Attempt.ofProgress (incoming.any (offers layout path))
            (mergeFields layout path rawIncoming last incoming) := by
      intro rawIncoming last
      rw [mergeTargets_eq_of_items, decide_eq_false (Nat.lt_irrefl 0), Bool.false_or]
      intro field hfield item tail hitem
      exact ih field hfield _ hitem item List.mem_cons_self
    rw [appendInPlace.eq_def]
    simp only
    split
    · rename_i last rawIncoming hlast
      have hsame := Value.replaceLast_of_lastItem hlast
      rw [contribute_of_lastItem hlast, absorbs_eq]
      cases refuses layout path last incoming with
      | true => simp [hsame, appendFresh_eq]
      | false =>
        simp only [Bool.false_eq_true, if_false, htargets, Bool.not_false, Bool.true_and]
        cases hoffers : incoming.any (offers layout path) with
        | true =>
          cases mergeFields layout path rawIncoming last incoming <;> rfl
        | false =>
          rw [mergeFields_of_no_offers hoffers]
          simp [Attempt.ofProgress, hsame, appendFresh_eq]
    · rename_i hno
      rw [appendFresh_eq, contribute]
      exact hno

/-- A merge in place is the merge that decides first. -/
theorem mergeInPlace_eq_merge? (layout : Layout) (previous candidate raw : Record) :
    mergeInPlace layout previous candidate raw =
      match merge? layout previous candidate raw with
      | some progress => Attempt.ofProgress true progress
      | none => ⟨.ok false, previous⟩ := by
  rw [mergeInPlace, merge?, absorbs_eq]
  cases refuses layout "" previous candidate with
  | true => rfl
  | false =>
    rw [if_neg Bool.false_ne_true, mergeTargets_eq_of_items fun _ _ item _ _ =>
      appendInPlace_eq item, decide_eq_false (Nat.lt_irrefl 0), Bool.false_or, Bool.not_false,
      Bool.true_and]
    cases hoffers : candidate.any (offers layout "") with
    | true => rfl
    | false => rw [mergeFields_of_no_offers hoffers]; rfl

/-! ## Rows in shape -/

theorem ne_null_of_wrapAt_shaped {value item : Value} {tail : List Value}
    (h : wrapAt layout path (shaped layout path value) = .list (item :: tail)) :
    value ≠ .null := by
  rintro rfl
  rw [shaped, wrapAt] at h
  split at h <;> cases h

/-- The fields of a row in shape are merged one after another if none of them stops. -/
theorem mergeFields_done {raw : Record} : ∀ {rest : List (String × Value)} {previous : Record},
    (∀ field ∈ rest, Entries.get? field.1 raw = some field.2) →
    (∀ field ∈ rest, ∀ (slot item : Value) (tail : List Value),
      wrapAt layout (FieldPath.extend path field.1)
        (shaped layout (FieldPath.extend path field.1) field.2) = .list (item :: tail) →
      ∃ grown, contribute layout (FieldPath.extend path field.1) field.2 slot item =
        .done grown) →
    ∃ merged, mergeFields layout path raw previous (shapedFields layout path rest) = .done merged
  | [], previous, _, _ => ⟨previous, by rw [shapedFields, mergeFields]⟩
  | (name, value) :: rest, previous, hget, hcontribute => by
    have ih := fun {previous : Record} => @mergeFields_done raw rest previous
      (fun field hfield => hget field (List.mem_cons_of_mem _ hfield))
      (fun field hfield => hcontribute field (List.mem_cons_of_mem _ hfield))
    rw [shapedFields]
    by_cases hoffers : offers layout path (name, wrapAt layout (FieldPath.extend path name)
        (shaped layout (FieldPath.extend path name) value)) = true
    · obtain ⟨item, tail, hvalue, hitem⟩ := exists_item_of_offers hoffers
      have hown := hcontribute _ List.mem_cons_self
        ((Entries.get? name previous).getD .null) item tail hvalue
      obtain ⟨grown, hgrown⟩ := hown
      rw [hvalue, mergeFields]
      simp only [hitem, if_true]
      rw [rawItem_of_get? (hget _ List.mem_cons_self) (ne_null_of_wrapAt_shaped hvalue), hgrown]
      exact ih
    · rw [mergeFields_cons_of_not_offers (Bool.eq_false_iff.mpr hoffers)]
      exact ih

theorem mergeFields_shapedFields_done {raw : Record} (previous : Record)
    (hnodup : (Entries.names raw).Nodup)
    (hcontribute : ∀ field ∈ raw, ∀ (slot item : Value) (tail : List Value),
      wrapAt layout (FieldPath.extend path field.1)
        (shaped layout (FieldPath.extend path field.1) field.2) = .list (item :: tail) →
      ∃ grown, contribute layout (FieldPath.extend path field.1) field.2 slot item =
        .done grown) :
    ∃ merged, mergeFields layout path raw previous (shapedFields layout path raw) = .done merged :=
  mergeFields_done (fun _ hfield => Entries.get?_of_mem hnodup hfield) hcontribute

/-- What a record contributes to a list is its shape. -/
theorem eq_record_of_wrapAt_shaped {fields : Record} {item : Value} {tail : List Value}
    (h : wrapAt layout path (shaped layout path (.record fields)) = .list (item :: tail)) :
    item = .record (shapedFields layout path fields) := by
  rw [shaped, Value.collapse, wrapAt] at h
  split at h
  · split at h
    · cases h
    · rw [Value.wrap_record, Value.list.injEq, List.cons.injEq] at h
      exact h.1.symm
  · split at h <;> cases h

theorem contribute_of_not_record {raw : Value} (h : ∀ fields, raw ≠ .record fields)
    (slot item : Value) :
    contribute layout path raw slot item = appendItem layout path raw slot := by
  cases item with
  | null => rw [contribute]
  | scalar text => rw [contribute]
  | list items => rw [contribute]
  | record fields =>
    rw [contribute]
    exact fun _ own _ hraw => h own hraw

/-- The first item of a list of a row in shape is merged without a stop. -/
theorem contribute_done {value : Value} (hkeyed : value.Keyed) :
    ∀ {path : String}, Typed layout path value → ∀ (slot item : Value) (tail : List Value),
      wrapAt layout path (shaped layout path value) = .list (item :: tail) →
      ∃ grown, contribute layout path value slot item = .done grown := by
  induction hkeyed with
  | null => exact fun _ _ _ _ hwrap => absurd rfl (ne_null_of_wrapAt_shaped hwrap)
  | scalar =>
    intro path htyped slot item tail hwrap
    rw [contribute_of_not_record fun _ h => Value.noConfusion h]
    exact ⟨_, appendItem_of_typed htyped slot⟩
  | list hitems ih =>
    intro path htyped slot item tail hwrap
    rw [contribute_of_not_record fun _ h => Value.noConfusion h]
    exact ⟨_, appendItem_of_typed htyped slot⟩
  | @record fields hnodup hfields ih =>
    intro path htyped slot item tail hwrap
    obtain rfl := eq_record_of_wrapAt_shaped hwrap
    cases htyped with
    | leaf hvalue => exact absurd rfl (hvalue fields)
    | record htypes hbelow =>
      have happend := appendItem_of_typed (.record htypes hbelow) slot
      by_cases hlast : ∃ last, slot.lastItem? = some (.record last)
      · obtain ⟨last, hlast⟩ := hlast
        obtain ⟨merged, hmerged⟩ := mergeFields_shapedFields_done last hnodup
          fun field hfield => ih field hfield (hbelow field hfield)
        rw [contribute_of_lastItem hlast, hmerged]
        split
        · exact ⟨_, rfl⟩
        · exact ⟨_, happend⟩
      · rw [contribute_of_no_lastItem fun last h => hlast ⟨last, h⟩]
        exact ⟨_, happend⟩

/-- Merging a row in shape goes through to the end. -/
theorem mergeFields_of_shape {raw candidate : Record} (hkeyed : (Value.record raw).Keyed)
    (hshape : shape layout path raw = .done candidate) (previous : Record) :
    ∃ merged, mergeFields layout path raw previous candidate = .done merged := by
  have htyped := typed_of_shape (fun field _ => typed_of_shapeValue field.2) hshape
  obtain rfl : shapedFields layout path raw = candidate := by
    rw [shape_of_typed htyped, Progress.done.injEq] at hshape
    exact hshape
  cases hkeyed with
  | record hnodup hfields =>
    cases htyped with
    | leaf hvalue => exact absurd rfl (hvalue raw)
    | record htypes hbelow =>
      exact mergeFields_shapedFields_done previous hnodup fun field hfield =>
        contribute_done (hfields field hfield) (hbelow field hfield)

/-! ## What a merge in place leaves -/

theorem left_of_merge?_none {previous candidate raw : Record}
    (h : merge? layout previous candidate raw = none) :
    mergeInPlace layout previous candidate raw = ⟨.ok false, previous⟩ := by
  rw [mergeInPlace_eq_merge?, h]

/-- Only a merge that decides against the row answers that it refuses. -/
theorem merge?_eq_none_of_refused {previous candidate raw : Record}
    (h : (mergeInPlace layout previous candidate raw).answer = .ok false) :
    merge? layout previous candidate raw = none := by
  rw [mergeInPlace_eq_merge?] at h
  cases hmerge : merge? layout previous candidate raw with
  | none => rfl
  | some progress => cases progress <;> rw [hmerge] at h <;> cases h

/-- A merge in place that refuses leaves the record as it was.  The merge of a row in shape either
refuses or goes through to the end, whatever the record is. -/
theorem mergeInPlace_refused_or_done (layout : Layout) (previous candidate raw : Record) :
    ((mergeInPlace layout previous candidate raw).answer = .ok false →
      (mergeInPlace layout previous candidate raw).left = previous) ∧
    ((Value.record raw).Keyed → shape layout "" raw = .done candidate →
      mergeInPlace layout previous candidate raw = ⟨.ok false, previous⟩ ∧
          merge? layout previous candidate raw = none ∨
      ∃ merged, mergeInPlace layout previous candidate raw = ⟨.ok true, merged⟩ ∧
        merge? layout previous candidate raw = some (.done merged)) := by
  refine ⟨fun hrefused => ?_, fun hkeyed hshape => ?_⟩
  · rw [left_of_merge?_none (merge?_eq_none_of_refused hrefused)]
  · obtain ⟨merged, hmerged⟩ := mergeFields_of_shape hkeyed hshape previous
    cases habsorbs : absorbs layout "" previous candidate with
    | false =>
      have hnone : merge? layout previous candidate raw = none := by
        rw [merge?, habsorbs, if_neg Bool.false_ne_true]
      exact Or.inl ⟨left_of_merge?_none hnone, hnone⟩
    | true =>
      have hdone : merge? layout previous candidate raw = some (.done merged) := by
        rw [merge?, habsorbs, if_pos rfl, hmerged]
      refine Or.inr ⟨merged, ?_, hdone⟩
      rw [mergeInPlace_eq_merge?, hdone]
      rfl

/-- A shop with a list of offers, each of them with a name. -/
def shop : Layout where
  schema.types := [("Shop", "string"), ("Offers", "list"), ("Offers.Name", "string")]
  settings.caseSensitive := true

/-- The record of a shop with an offer. -/
def corner : Record :=
  [("Shop", .scalar "Corner"), ("Offers", .list [.record [("Name", .scalar "Pear")]])]

/-- A row with a further offer, as it is read. -/
def rawApple : Record := [("Shop", .null), ("Offers", .record [("Name", .scalar "Apple")])]

/-- A row of another shop is refused.  A further offer is tried on the last one of the corner shop,
which refuses it, and is added. -/
theorem corner_mergeInPlace :
    (mergeInPlace shop corner [("Shop", .scalar "Market")] [("Shop", .scalar "Market")]).left =
      corner ∧
    mergeInPlace shop corner (shapedFields shop "" rawApple) rawApple = ⟨.ok true,
      [("Shop", .scalar "Corner"), ("Offers", .list [.record [("Name", .scalar "Pear")],
        .record [("Name", .scalar "Apple")]])]⟩ := by
  have hrefused : (mergeInPlace shop corner [("Shop", .scalar "Market")]
      [("Shop", .scalar "Market")]).answer = .ok false := by
    rfl
  have hshape : shape shop "" rawApple = .done (shapedFields shop "" rawApple) := by
    decide +kernel
  have hkeyed : (Value.record rawApple).Keyed := by
    have hoffer : (Value.record [("Name", .scalar "Apple")]).Keyed :=
      .record (by decide) (List.forall_mem_singleton.mpr .scalar)
    exact .record (by decide) (List.forall_mem_cons.mpr
      ⟨.null, List.forall_mem_singleton.mpr hoffer⟩)
  have hmerge : merge? shop corner (shapedFields shop "" rawApple) rawApple = some (.done
      [("Shop", .scalar "Corner"), ("Offers", .list [.record [("Name", .scalar "Pear")],
        .record [("Name", .scalar "Apple")]])]) := by
    decide +kernel
  refine ⟨(mergeInPlace_refused_or_done _ _ _ _).1 hrefused, ?_⟩
  rcases (mergeInPlace_refused_or_done shop corner _ _).2 hkeyed hshape with
    ⟨-, hnone⟩ | ⟨merged, hdone, hsome⟩
  · rw [hmerge] at hnone
    cases hnone
  · rw [hmerge, Option.some.injEq, Progress.done.injEq] at hsome
    rw [hdone, hsome]

end Record

end SheetCompiler
