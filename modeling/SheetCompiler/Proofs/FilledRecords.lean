import SheetCompiler.Proofs.Shaping

/-!
# Filled records

Filling writes the defaults of a header into blank leaves and leaves everything else as it is.
`Layout.Fills` says what that means for a tree of any shape, also for one that no row could give:
fields keep their names and their order, lists keep their length, and a node that changes was a blank
leaf and becomes the default of its path (`Record.fills_fillField`).

A default is written in one of two ways.  A field with a default of its own is not looked into, so all
that happens there is `Value.fillLeaf` (`Record.fillField_of_fallback`).  A field without one hands
the filling on to the fields below it.  Doing either twice is doing it once
(`Record.fillField_fillField`).
-/

namespace SheetCompiler

/-- What a value at a path may become by taking defaults.  A blank leaf may become the default of its
path; the only item of a list stands at the path of the list; and where a list holds records, their
fields stand below the path of the list. -/
inductive Layout.Fills (layout : Layout) : String → Value → Value → Prop
  | same {path : String} (value : Value) : Fills layout path value value
  | blank {path text : String} {value : Value} (hblank : value.isBlankLeaf = true)
      (hdefault : layout.fallback? path = some text) : Fills layout path value (.scalar text)
  | soleItem {path text : String} {item : Value} (hblank : item.isBlankLeaf = true)
      (hdefault : layout.fallback? path = some text) :
      Fills layout path (.list [item]) (.list [.scalar text])
  | record {path : String} {fields filled : List (String × Value)}
      (hnames : Entries.names filled = Entries.names fields)
      (hfields : ∀ pair ∈ fields.zip filled,
        Fills layout (FieldPath.extend path pair.1.1) pair.1.2 pair.2.2) :
      Fills layout path (.record fields) (.record filled)
  | items {path : String} {items filled : List Value} (hlength : filled.length = items.length)
      (hrecords : ∀ pair ∈ items.zip filled, ∀ fields, pair.1 = .record fields →
        Fills layout path (.record fields) pair.2)
      (hothers : ∀ pair ∈ items.zip filled, (∀ fields, pair.1 ≠ .record fields) →
        pair.2 = pair.1) :
      Fills layout path (.list items) (.list filled)

/-- Writing a text into a blank leaf twice is writing it once, also if the text is empty. -/
theorem Value.fillLeaf_fillLeaf (text : String) (value : Value) :
    fillLeaf text (fillLeaf text value) = fillLeaf text value := by
  cases value with
  | null =>
    rw [fillLeaf_null, fillLeaf]
    split <;> rfl
  | scalar old =>
    rw [fillLeaf]
    split
    · rw [fillLeaf]
      split <;> rfl
    · rename_i hfilled
      rw [fillLeaf, if_neg hfilled]
  | record fields => rfl
  | list items =>
    rcases items with _ | ⟨item, _ | ⟨second, rest⟩⟩
    · rfl
    · rw [fillLeaf]
      split
      · rw [fillLeaf]
        split <;> rfl
      · rename_i hfilled
        rw [fillLeaf, if_neg hfilled]
    · rfl

namespace Record

variable {layout : Layout} {path : String}

/-! ## The two ways of filling a field -/

/-- A field with a default is filled as a leaf, whatever stands in it. -/
theorem fillField_of_fallback {text : String} (h : layout.fallback? path = some text)
    (value : Value) : fillField layout path value = value.fillLeaf text := by
  cases value with
  | null => simp only [fillField, h]
  | scalar old => simp only [fillField, h]
  | record fields =>
    rw [fillField, h, Option.isSome_some, if_pos rfl, Value.fillLeaf_record]
  | list items => simp only [fillField, h]

/-- Without a default the fields of a record are filled. -/
theorem fillField_record_of_none (h : layout.fallback? path = none)
    (fields : List (String × Value)) :
    fillField layout path (.record fields) = .record (fill layout path fields) := by
  rw [fillField, h, Option.isSome_none, if_neg Bool.false_ne_true]

/-- Without a default the records among the items of a list are filled. -/
theorem fillField_list_of_none (h : layout.fallback? path = none) (items : List Value) :
    fillField layout path (.list items) = .list (items.map fun item =>
      item.record?.elim item fun fields => .record (fill layout path fields)) := by
  have hitems : fillItems layout path items = items.map fun item =>
      item.record?.elim item fun fields => .record (fill layout path fields) := by
    induction items with
    | nil => rw [fillItems, List.map_nil]
    | cons item rest ih => cases item <;> rw [fillItems, ih, List.map_cons] <;> rfl
  simp only [fillField, h, hitems]

/-! ## What filling changes -/

theorem fills_fillLeaf {text : String} (h : layout.fallback? path = some text) (value : Value) :
    layout.Fills path value (value.fillLeaf text) := by
  cases value with
  | null => exact .blank rfl h
  | scalar old =>
    rw [Value.fillLeaf]
    split
    · rename_i hblank
      exact .blank hblank h
    · exact .same _
  | record fields => exact .same _
  | list items =>
    rcases items with _ | ⟨item, _ | ⟨second, rest⟩⟩
    · exact .same _
    · rw [Value.fillLeaf]
      split
      · rename_i hblank
        exact .soleItem hblank h
      · exact .same _
    · exact .same _

/-- A record takes defaults as its fields do. -/
theorem fills_fill_of_forall {fields : Record}
    (hfields : ∀ field ∈ fields, layout.Fills (FieldPath.extend path field.1) field.2
      (fillField layout (FieldPath.extend path field.1) field.2)) :
    layout.Fills path (.record fields) (.record (fill layout path fields)) := by
  refine .record (names_fill layout path fields) ?_
  rw [fill_eq_map, ← List.map_prod_left_eq_zip, List.forall_mem_map]
  exact hfields

theorem fills_fillField_of_none {value : Value}
    (h : layout.fallback? path = none → layout.Fills path value (fillField layout path value)) :
    layout.Fills path value (fillField layout path value) := by
  cases hdefault : layout.fallback? path with
  | some text =>
    rw [fillField_of_fallback hdefault]
    exact fills_fillLeaf hdefault value
  | none => exact h hdefault

/-- What filling changes in a field were blank leaves, and now they are defaults of their paths. -/
theorem fills_fillField (value : Value) (path : String) :
    layout.Fills path value (fillField layout path value) := by
  induction value using Value.treeInduction generalizing path with
  | null =>
    refine fills_fillField_of_none fun h => ?_
    simp only [fillField, h]
    exact .same _
  | scalar old =>
    refine fills_fillField_of_none fun h => ?_
    simp only [fillField, h]
    exact .same _
  | record fields ih =>
    refine fills_fillField_of_none fun h => ?_
    rw [fillField_record_of_none h]
    exact fills_fill_of_forall fun field hfield => ih field hfield _
  | list items ih =>
    refine fills_fillField_of_none fun h => ?_
    rw [fillField_list_of_none h]
    refine .items (List.length_map _) ?_ ?_
    · rw [← List.map_prod_left_eq_zip, List.forall_mem_map]
      rintro item hitem fields rfl
      have hrecord := ih _ hitem path
      rwa [fillField_record_of_none h] at hrecord
    · rw [← List.map_prod_left_eq_zip, List.forall_mem_map]
      intro item _ hother
      cases item with
      | record fields => exact absurd rfl (hother fields)
      | null => rfl
      | scalar text => rfl
      | list items => rfl

/-! ## Filling twice -/

theorem fill_fill_of_forall {fields : Record}
    (hfields : ∀ field ∈ fields, fillField layout (FieldPath.extend path field.1)
      (fillField layout (FieldPath.extend path field.1) field.2) =
        fillField layout (FieldPath.extend path field.1) field.2) :
    fill layout path (fill layout path fields) = fill layout path fields := by
  rw [fill_eq_map, fill_eq_map, List.map_map]
  refine List.map_congr_left fun field hfield => ?_
  exact Prod.ext rfl (hfields field hfield)

theorem fillField_fillField_of_none {value : Value}
    (h : layout.fallback? path = none →
      fillField layout path (fillField layout path value) = fillField layout path value) :
    fillField layout path (fillField layout path value) = fillField layout path value := by
  cases hdefault : layout.fallback? path with
  | some text =>
    rw [fillField_of_fallback hdefault, fillField_of_fallback hdefault, Value.fillLeaf_fillLeaf]
  | none => exact h hdefault

theorem fillField_fillField (value : Value) (path : String) :
    fillField layout path (fillField layout path value) = fillField layout path value := by
  induction value using Value.treeInduction generalizing path with
  | null => exact fillField_fillField_of_none fun h => by simp only [fillField, h]
  | scalar old => exact fillField_fillField_of_none fun h => by simp only [fillField, h]
  | record fields ih =>
    refine fillField_fillField_of_none fun h => ?_
    rw [fillField_record_of_none h, fillField_record_of_none h,
      fill_fill_of_forall fun field hfield => ih field hfield _]
  | list items ih =>
    refine fillField_fillField_of_none fun h => ?_
    rw [fillField_list_of_none h, fillField_list_of_none h, List.map_map]
    congr 1
    refine List.map_congr_left fun item hitem => ?_
    cases item with
    | record fields =>
      have hrecord := ih _ hitem path
      rwa [fillField_record_of_none h, fillField_record_of_none h] at hrecord
    | null => rfl
    | scalar text => rfl
    | list items => rfl

theorem fill_fill (fields : Record) :
    fill layout path (fill layout path fields) = fill layout path fields :=
  fill_fill_of_forall fun field _ => fillField_fillField field.2 _

/-! ## Values by themselves -/

theorem fillValue_of_ne_record {value : Value} (h : ∀ fields, value ≠ .record fields) :
    fillValue layout path value = fillField layout path value := by
  cases value with
  | record fields => exact absurd rfl (h fields)
  | null => rfl
  | scalar text => rfl
  | list items => rfl

theorem fillField_of_isBlankLeaf {text : String} (h : layout.fallback? path = some text)
    {value : Value} (hblank : value.isBlankLeaf = true) :
    fillField layout path value = .scalar text := by
  rw [fillField_of_fallback h]
  cases value with
  | null => rfl
  | scalar old =>
    have hempty : old.isEmpty = true := hblank
    rw [Value.fillLeaf, if_pos hempty]
  | record fields => cases hblank
  | list items => cases hblank

/-- Filling is conservative.  A value of any shape, filled at any path with the defaults of any header,
keeps its fields, their order and the length of its lists, and what changes in it were blank leaves
that become the default of their path (`Layout.Fills`).  Filling it twice is filling it once.  The
same holds of the fields of a record.  Nor is this so because nothing is filled at all: a blank that
stands at a default takes it. -/
theorem fill_conservative (layout : Layout) (path : String) :
    (∀ value : Value, layout.Fills path value (fillValue layout path value) ∧
      fillValue layout path (fillValue layout path value) = fillValue layout path value ∧
      (value.isBlankLeaf = true → ∀ text, layout.fallback? path = some text →
        fillValue layout path value = .scalar text)) ∧
    (∀ record : Record, layout.Fills path (.record record) (.record (fill layout path record)) ∧
      fill layout path (fill layout path record) = fill layout path record ∧
      ∀ field ∈ record, field.2.isBlankLeaf = true →
        ∀ text, layout.fallback? (FieldPath.extend path field.1) = some text →
          (field.1, .scalar text) ∈ fill layout path record) := by
  have hfills : ∀ record : Record, layout.Fills path (.record record)
      (.record (fill layout path record)) := fun record =>
    fills_fill_of_forall fun field _ => fills_fillField field.2 _
  refine ⟨fun value => ?_, fun record => ⟨hfills record, fill_fill record, ?_⟩⟩
  · by_cases hrecord : ∃ fields, value = .record fields
    · obtain ⟨fields, rfl⟩ := hrecord
      refine ⟨hfills fields, ?_, fun hblank => by cases hblank⟩
      rw [fillValue, fillValue, fill_fill]
    · have hother : ∀ fields, value ≠ .record fields := fun fields h => hrecord ⟨fields, h⟩
      rw [fillValue_of_ne_record hother, fillValue_of_ne_record (fillField_ne_record hother)]
      exact ⟨fills_fillField value path, fillField_fillField value path,
        fun hblank text h => fillField_of_isBlankLeaf h hblank⟩
  · intro field hfield hblank text h
    rw [fill_eq_map, List.mem_map]
    exact ⟨field, hfield, by rw [fillField_of_isBlankLeaf h hblank]⟩

/-- Defaults for two plain fields, one of them empty, for a list of tags and for the prices of goods. -/
def stall : Layout where
  schema.fallbacks := [("Unit", "kg"), ("Note", ""), ("Tags", "none"), ("Goods.Price", "0")]
  settings := {}

/-- A record of a shape that no row could give. -/
def delivery : Record :=
  [("Unit", .scalar ""), ("Note", .null), ("Tags", .list [.null]),
    ("Goods", .list [.record [("Name", .null), ("Price", .null)], .null,
      .record [("Name", .scalar "Pear"), ("Price", .scalar "2")],
      .list [.record [("Price", .null)]]])]

/-- The unit, the only tag and the price of the first goods are filled, and the note is an empty text
now.  The blank item and the list among the goods stand at no path and are left alone. -/
theorem delivery_fill_conservative :
    fill stall "" delivery =
      [("Unit", .scalar "kg"), ("Note", .scalar ""), ("Tags", .list [.scalar "none"]),
        ("Goods", .list [.record [("Name", .null), ("Price", .scalar "0")], .null,
          .record [("Name", .scalar "Pear"), ("Price", .scalar "2")],
          .list [.record [("Price", .null)]]])] ∧
    stall.Fills "" (.record delivery) (.record (fill stall "" delivery)) ∧
    fill stall "" (fill stall "" delivery) = fill stall "" delivery ∧
    ("Unit", .scalar "kg") ∈ fill stall "" delivery ∧
    fillValue stall "Tags" .null = .scalar "none" := by
  obtain ⟨hvalue, hrecord⟩ := fill_conservative stall ""
  obtain ⟨hfills, hsame, hblanks⟩ := hrecord delivery
  refine ⟨by decide +kernel, hfills, hsame, ?_, ?_⟩
  · exact hblanks ("Unit", .scalar "") List.mem_cons_self rfl "kg" rfl
  · exact ((fill_conservative stall "Tags").1 .null).2.2 rfl "none" rfl

end Record

end SheetCompiler
