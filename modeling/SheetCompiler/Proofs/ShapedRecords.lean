import SheetCompiler.Compiled.Sheet
import SheetCompiler.Proofs.PrunedRecords

/-!
# Shaped records

Shaping goes through the fields of a record depth first and asks for the type of each before it looks
into it.  So it stops at the first field without a type in that order (`Record.untyped?_shapeValue`,
over the order `Value.reached`), and it goes through if there is none.

What it makes of a record is told field by field.  `Record.Stays` follows a field from the record
before to the record after, through records that may have been wrapped on the way, and
`Layout.Shapes` says what has become of it.  A field that is not there any more has gone with a record
around it that had nothing in it (`Record.NotLost`).  No text is lost (`Record.texts_shaped`), and a
record in shape stays as it is (`Record.shapedFields_shapedFields`).
-/

namespace SheetCompiler

namespace Value

mutual

/-- The fields that are reached through records, with their paths: depth first, and each field before
those in it.  Lists are not looked into. -/
def reached (path : String) : Value → List (String × Value)
  | .record fields => reachedFields path fields
  | .null => []
  | .scalar _ => []
  | .list _ => []

/-- The fields that are reached from the fields below a path. -/
def reachedFields (path : String) : List (String × Value) → List (String × Value)
  | [] => []
  | (name, value) :: rest =>
    (FieldPath.extend path name, value) ::
      (reached (FieldPath.extend path name) value ++ reachedFields path rest)

end

theorem reached_record (path : String) (fields : List (String × Value)) :
    reached path (.record fields) = fields.flatMap fun field =>
      (FieldPath.extend path field.1, field.2) ::
        reached (FieldPath.extend path field.1) field.2 := by
  rw [reached]
  induction fields with
  | nil => rw [reachedFields, List.flatMap_nil]
  | cons field rest ih => rw [reachedFields, ih, List.flatMap_cons, List.cons_append]

end Value

/-- What shaping makes of a field at a path.  A field of list type holds nothing or a list.  A record
is shaped like a record by itself: it becomes nothing if only empty fields are left in it, and else it
is wrapped if its field is a list.  A text is wrapped likewise, and a list is kept as it is. -/
structure Layout.Shapes (layout : Layout) (path : String) (old new : Value) : Prop where
  list : layout.isList path = true → new = .null ∨ ∃ items, new = .list items
  record : ∀ fields, old = .record fields → ∃ shaped, Record.shape layout path fields = .done shaped ∧
    Entries.names shaped = Entries.names fields ∧
    new = if Value.fieldsEmpty shaped then .null
      else if layout.isList path then .list [.record shaped] else .record shaped
  text : ∀ text, old = .scalar text →
    new = if layout.isList path then .list [.scalar text] else .scalar text
  items : ∀ items, old = .list items → new = .list items
  null : old = .null → new = .null

namespace Record

open Value (texts reached)

/-! ## Fields before and after -/

/-- A field that is reached through records before and is there after: its path, what it held and what
it holds.  A record on the way is still in its field, by itself or as the only item of a list. -/
inductive Stays : (path : String) → (before after : Record) → (inner : String) →
    (old new : Value) → Prop
  | field {path : String} {before after : Record} {i : Nat} {name : String} {old new : Value}
      (hold : before[i]? = some (name, old)) (hnew : after[i]? = some (name, new)) :
      Stays path before after (FieldPath.extend path name) old new
  | deeper {path outer inner : String} {before after fields shaped : Record}
      {standing old new : Value} (houter : Stays path before after outer (.record fields) standing)
      (hstanding : standing = .record shaped ∨ standing = .list [.record shaped])
      (h : Stays outer fields shaped inner old new) : Stays path before after inner old new

/-- A field that is reached before is there after, or a record around it is nothing now, in which
all fields were empty. -/
def NotLost (path : String) (before after : Record) (field : String × Value) : Prop :=
  (∃ new, Stays path before after field.1 field.2 new) ∨
    ∃ outer fields, Stays path before after outer (.record fields) .null ∧
      Value.fieldsEmpty fields = true ∧ field ∈ reached outer (.record fields)

variable {layout : Layout} {path : String}

/-! ## The first field without a type -/

theorem untyped?_shape_of_forall {fields : List (String × Value)}
    (hfields : ∀ field ∈ fields,
      (shapeValue layout (FieldPath.extend path field.1) field.2).untyped? =
        ((reached (FieldPath.extend path field.1) field.2).map Prod.fst).find?
          fun inner => (layout.type? inner).isNone) :
    (shape layout path fields).untyped? = ((reached path (.record fields)).map Prod.fst).find?
      fun inner => (layout.type? inner).isNone := by
  induction fields with
  | nil => rw [shape, Value.reached_record]; rfl
  | cons field rest ih =>
    obtain ⟨hfield, hrest⟩ := List.forall_mem_cons.mp hfields
    rw [Value.reached_record, List.flatMap_cons, ← Value.reached_record, List.map_append,
      List.map_cons, List.cons_append, shape]
    cases htype : layout.type? (FieldPath.extend path field.1) with
    | none => rw [List.find?_cons_of_pos (by rw [htype]; rfl)]; rfl
    | some tag =>
      rw [List.find?_cons_of_neg (by rw [htype]; exact Bool.false_ne_true), List.find?_append,
        ← hfield, ← ih hrest]
      cases shapeValue layout (FieldPath.extend path field.1) field.2 with
      | stopped untyped left => rfl
      | done value => exact Progress.untyped?_map _ _

/-- Shaping stops at the first field that has no type, each field coming before those in it. -/
theorem untyped?_shapeValue (value : Value) (path : String) :
    (shapeValue layout path value).untyped? = ((reached path value).map Prod.fst).find?
      fun inner => (layout.type? inner).isNone := by
  induction value using Value.treeInduction generalizing path with
  | null => rw [shapeValue, reached]; rfl
  | scalar text => rw [shapeValue, reached]; rfl
  | list items => rw [shapeValue, reached]; rfl
  | record fields ih =>
    rw [← untyped?_shape_of_forall fun field hfield => ih field hfield _, shapeValue]
    cases shape layout path fields <;> rfl

/-! ## What shaping keeps -/

theorem isEmpty_of_wrapAt {value : Value} (h : (wrapAt layout path value).isEmpty = true) :
    value.isEmpty = true := by
  rw [wrapAt] at h
  split at h
  · cases value with
    | null => rfl
    | list items => exact h
    | scalar text => cases h
    | record fields => cases h
  · exact h

/-- Shaping empties nothing. -/
theorem isEmpty_of_wrapAt_shaped (value : Value) (path : String)
    (h : (wrapAt layout path (shaped layout path value)).isEmpty = true) :
    value.isEmpty = true := by
  induction value using Value.treeInduction generalizing path with
  | null => rfl
  | scalar text =>
    rw [shaped] at h
    exact isEmpty_of_wrapAt h
  | list items =>
    rw [shaped] at h
    exact isEmpty_of_wrapAt h
  | record fields ih =>
    have hfields := isEmpty_of_wrapAt h
    rw [shaped, isEmpty_collapse, Value.isEmpty_record, Value.fieldsEmpty_iff,
      shapedFields_eq_map, List.forall_mem_map] at hfields
    rw [Value.isEmpty_record, Value.fieldsEmpty_iff]
    exact fun field hfield => ih field hfield _ (hfields field hfield)

theorem fieldsEmpty_of_shapedFields {fields : Record}
    (h : Value.fieldsEmpty (shapedFields layout path fields) = true) :
    Value.fieldsEmpty fields = true := by
  rw [Value.fieldsEmpty_iff, shapedFields_eq_map, List.forall_mem_map] at h
  rw [Value.fieldsEmpty_iff]
  exact fun field hfield => isEmpty_of_wrapAt_shaped _ _ (h field hfield)

theorem texts_wrapAt (value : Value) : texts (wrapAt layout path value) = texts value := by
  rw [wrapAt]
  split
  · cases value with
    | null => rfl
    | list items => rfl
    | scalar text => rw [Value.wrap_scalar, Value.texts_list, List.flatMap_singleton]
    | record fields => rw [Value.wrap_record, Value.texts_list, List.flatMap_singleton]
  · rfl

/-- Shaping keeps the texts in their order. -/
theorem texts_shaped (value : Value) (path : String) :
    texts (shaped layout path value) = texts value := by
  induction value using Value.treeInduction generalizing path with
  | null => rw [shaped]
  | scalar text => rw [shaped]
  | list items => rw [shaped]
  | record fields ih =>
    rw [shaped, Value.texts_collapse, Value.texts_record, Value.texts_record, shapedFields_eq_map,
      List.flatMap_map]
    refine List.flatMap_congr fun field hfield => ?_
    rw [texts_wrapAt, ih field hfield]

/-! ## What becomes of a field -/

theorem wrapAt_shaped_null : wrapAt layout path (shaped layout path .null) = .null := by
  rw [shaped, wrapAt]
  split <;> rfl

theorem wrapAt_shaped_list (items : List Value) :
    wrapAt layout path (shaped layout path (.list items)) = .list items := by
  rw [shaped, wrapAt]
  split <;> rfl

theorem wrapAt_shaped_scalar (text : String) :
    wrapAt layout path (shaped layout path (.scalar text)) =
      if layout.isList path then .list [.scalar text] else .scalar text := by
  rw [shaped, wrapAt]
  split <;> rfl

/-- A record in a field: nothing if nothing is left in it, else itself, wrapped if the field is a
list. -/
theorem wrapAt_shaped_record (fields : Record) :
    wrapAt layout path (shaped layout path (.record fields)) =
      if Value.fieldsEmpty (shapedFields layout path fields) then .null
      else if layout.isList path then .list [.record (shapedFields layout path fields)]
      else .record (shapedFields layout path fields) := by
  rw [shaped, Value.collapse, wrapAt]
  split
  · split <;> rfl
  · split <;> rfl

theorem wrapAt_shaped_record_of_filled {fields : Record}
    (h : ¬Value.fieldsEmpty (shapedFields layout path fields) = true) :
    wrapAt layout path (shaped layout path (.record fields)) =
        .record (shapedFields layout path fields) ∨
      wrapAt layout path (shaped layout path (.record fields)) =
        .list [.record (shapedFields layout path fields)] := by
  rw [wrapAt_shaped_record, if_neg h]
  split
  · exact Or.inr rfl
  · exact Or.inl rfl

theorem shapes_wrapAt_shaped {value : Value} (h : Typed layout path value) :
    layout.Shapes path value (wrapAt layout path (shaped layout path value)) where
  list hlist := by
    rw [wrapAt, if_pos hlist]
    cases shaped layout path value with
    | null => exact Or.inl rfl
    | list items => exact Or.inr ⟨items, rfl⟩
    | scalar text => exact Or.inr ⟨_, rfl⟩
    | record fields => exact Or.inr ⟨_, rfl⟩
  record fields hfields := by
    subst hfields
    exact ⟨_, shape_of_typed h, names_shapedFields layout path fields, wrapAt_shaped_record fields⟩
  text text htext := by rw [htext, wrapAt_shaped_scalar]
  items items hitems := by rw [hitems, wrapAt_shaped_list]
  null hnull := by rw [hnull, wrapAt_shaped_null]

/-- Where a record was shaped, a field that is still there was shaped too. -/
theorem Stays.eq_wrapAt_shaped {before after : Record} {inner : String} {old new : Value}
    (h : Stays path before after inner old new) (hafter : after = shapedFields layout path before)
    (htyped : Typed layout path (.record before)) :
    new = wrapAt layout inner (shaped layout inner old) ∧ Typed layout inner old := by
  induction h with
  | field hold hnew =>
    rw [hafter, shapedFields_eq_map, List.getElem?_map, hold, Option.map_some,
      Option.some.injEq, Prod.mk.injEq] at hnew
    cases htyped with
    | leaf hvalue => exact absurd rfl (hvalue _)
    | record _ hfields => exact ⟨hnew.2.symm, hfields _ (List.mem_of_getElem? hold)⟩
  | deeper houter hstanding h ihouter ih =>
    obtain ⟨hshaped, hinner⟩ := ihouter hafter htyped
    refine ih ?_ hinner
    rw [wrapAt_shaped_record] at hshaped
    -- only a record that is left can be looked into
    split at hshaped
    · rcases hstanding with rfl | rfl <;> cases hshaped
    · split at hshaped
      · rcases hstanding with rfl | rfl
        · cases hshaped
        · simpa using hshaped
      · rcases hstanding with rfl | rfl
        · simpa using hshaped
        · cases hshaped

/-- Only records are looked into. -/
theorem eq_record_of_mem_reached {value : Value} {field : String × Value}
    (h : field ∈ reached path value) : ∃ fields, value = .record fields := by
  cases value with
  | record fields => exact ⟨fields, rfl⟩
  | null => rw [reached] at h; cases h
  | scalar text => rw [reached] at h; cases h
  | list items => rw [reached] at h; cases h

/-- A field right below is still there. -/
theorem stays_of_getElem? {fields : Record} {i : Nat} {name : String} {value : Value}
    (h : fields[i]? = some (name, value)) :
    Stays path fields (shapedFields layout path fields) (FieldPath.extend path name) value
      (wrapAt layout (FieldPath.extend path name)
        (shaped layout (FieldPath.extend path name) value)) := by
  refine .field h ?_
  rw [shapedFields_eq_map, List.getElem?_map, h, Option.map_some]

/-- What is kept in a record in a field is kept, and where that record becomes nothing, all that is
in it goes with it. -/
theorem NotLost.of_getElem? {fields inside : Record} {i : Nat} {name : String}
    {field : String × Value} (h : fields[i]? = some (name, .record inside))
    (hreached : field ∈ reached (FieldPath.extend path name) (.record inside))
    (hkept : NotLost (FieldPath.extend path name) inside
      (shapedFields layout (FieldPath.extend path name) inside) field) :
    NotLost path fields (shapedFields layout path fields) field := by
  have hstays : Stays path fields (shapedFields layout path fields) _ _ _ := stays_of_getElem? h
  by_cases hempty : Value.fieldsEmpty (shapedFields layout (FieldPath.extend path name) inside) = true
  · rw [wrapAt_shaped_record, if_pos hempty] at hstays
    exact Or.inr ⟨_, inside, hstays, fieldsEmpty_of_shapedFields hempty, hreached⟩
  · have hstanding := wrapAt_shaped_record_of_filled hempty
    rcases hkept with ⟨new, hnew⟩ | ⟨outer, around, houter, hnone, hmem⟩
    · exact Or.inl ⟨new, .deeper hstays hstanding hnew⟩
    · exact Or.inr ⟨outer, around, .deeper hstays hstanding houter, hnone, hmem⟩

/-- A field that is reached is still there, unless a record around it became nothing. -/
theorem notLost_shapedFields (value : Value) (path : String) (before : Record)
    (hvalue : value = .record before) : ∀ field ∈ reached path (.record before),
      NotLost path before (shapedFields layout path before) field := by
  induction value using Value.treeInduction generalizing path before with
  | null => cases hvalue
  | scalar text => cases hvalue
  | list items => cases hvalue
  | record fields ih =>
    obtain rfl := Value.record.inj hvalue
    intro field hreached
    rw [Value.reached_record, List.mem_flatMap] at hreached
    obtain ⟨⟨name, own⟩, hown, hreached⟩ := hreached
    obtain ⟨i, hi⟩ := List.mem_iff_getElem?.mp hown
    rcases List.mem_cons.mp hreached with rfl | hinner
    · exact Or.inl ⟨_, stays_of_getElem? hi⟩
    · obtain ⟨inside, rfl⟩ := eq_record_of_mem_reached hinner
      exact NotLost.of_getElem? hi hinner (ih _ hown _ inside rfl field hinner)

/-! ## Shaping twice -/

theorem shapedFields_shapedFields_of_forall {fields : Record}
    (hfields : ∀ field ∈ fields, ∀ inner,
      wrapAt layout inner (shaped layout inner (wrapAt layout inner
        (shaped layout inner field.2))) = wrapAt layout inner (shaped layout inner field.2)) :
    shapedFields layout path (shapedFields layout path fields) =
      shapedFields layout path fields := by
  rw [shapedFields_eq_map, shapedFields_eq_map, List.map_map]
  refine List.map_congr_left fun field hfield => ?_
  exact Prod.ext rfl (hfields field hfield _)

/-- What a field holds in shape is in shape. -/
theorem wrapAt_shaped_wrapAt_shaped (value : Value) (path : String) :
    wrapAt layout path (shaped layout path (wrapAt layout path (shaped layout path value))) =
      wrapAt layout path (shaped layout path value) := by
  induction value using Value.treeInduction generalizing path with
  | null => rw [wrapAt_shaped_null, wrapAt_shaped_null]
  | list items => rw [wrapAt_shaped_list, wrapAt_shaped_list]
  | scalar text =>
    rw [wrapAt_shaped_scalar]
    split
    · exact wrapAt_shaped_list _
    · rename_i hlist
      rw [wrapAt_shaped_scalar, if_neg hlist]
  | record fields ih =>
    rw [wrapAt_shaped_record]
    split
    · exact wrapAt_shaped_null
    · rename_i hfilled
      split
      · exact wrapAt_shaped_list _
      · rename_i hlist
        rw [wrapAt_shaped_record, shapedFields_shapedFields_of_forall ih, if_neg hfilled,
          if_neg hlist]

theorem shapedFields_shapedFields (fields : Record) :
    shapedFields layout path (shapedFields layout path fields) =
      shapedFields layout path fields :=
  shapedFields_shapedFields_of_forall fun field _ => wrapAt_shaped_wrapAt_shaped field.2

theorem typed_shapedFields_of_forall {fields : Record}
    (htypes : ∀ field ∈ fields, (layout.type? (FieldPath.extend path field.1)).isSome)
    (hfields : ∀ field ∈ fields, Typed layout (FieldPath.extend path field.1)
      (wrapAt layout (FieldPath.extend path field.1)
        (shaped layout (FieldPath.extend path field.1) field.2))) :
    Typed layout path (.record (shapedFields layout path fields)) := by
  rw [shapedFields_eq_map]
  exact .record (List.forall_mem_map.mpr htypes) (List.forall_mem_map.mpr hfields)

/-- The fields that are reached in a shaped value have types, as they had before. -/
theorem typed_wrapAt_shaped {value : Value} (h : Typed layout path value) :
    Typed layout path (wrapAt layout path (shaped layout path value)) := by
  induction h with
  | @leaf path value hvalue =>
    refine .leaf fun fields hfields => ?_
    cases value with
    | null => rw [wrapAt_shaped_null] at hfields; cases hfields
    | list items => rw [wrapAt_shaped_list] at hfields; cases hfields
    | scalar text =>
      rw [wrapAt_shaped_scalar] at hfields
      split at hfields <;> cases hfields
    | record inner => exact hvalue inner rfl
  | record htypes hfields ih =>
    rw [wrapAt_shaped_record]
    split
    · exact .leaf fun _ h => Value.noConfusion h
    · split
      · exact .leaf fun _ h => Value.noConfusion h
      · exact typed_shapedFields_of_forall htypes ih

theorem typed_shapedFields {fields : Record} (h : Typed layout path (.record fields)) :
    Typed layout path (.record (shapedFields layout path fields)) := by
  cases h with
  | leaf hvalue => exact absurd rfl (hvalue fields)
  | record htypes hfields =>
    exact typed_shapedFields_of_forall htypes fun field hfield =>
      typed_wrapAt_shaped (hfields field hfield)

end Record

namespace CompiledSheet

open Record (shape shapedFields Stays NotLost)
open Value (reached texts)

variable {sheet : Worksheet} {row : Nat} {progress : Progress Record}

theorem settle_eq_ok_iff {record : Record} :
    settle sheet row progress = .ok record ↔ progress = .done record := by
  cases progress with
  | done value => rw [settle_done, Except.ok.injEq, Progress.done.injEq]
  | stopped path left => rw [settle_stopped]; exact ⟨nofun, nofun⟩

theorem exists_settle_eq_ok_iff :
    (∃ record, settle sheet row progress = .ok record) ↔ progress.untyped? = none := by
  simp only [settle_eq_ok_iff]
  cases progress with
  | done value => exact ⟨fun _ => rfl, fun _ => ⟨value, rfl⟩⟩
  | stopped path left => exact ⟨nofun, nofun⟩

theorem settle_eq_error_iff {fault : SheetFault} : settle sheet row progress = .error fault ↔
    ∃ path, progress.untyped? = some path ∧ fault = .untypedField sheet.name row path := by
  cases progress with
  | done value => rw [settle_done]; exact ⟨nofun, nofun⟩
  | stopped path left =>
    rw [settle_stopped, Except.error.injEq]
    constructor
    · rintro rfl
      exact ⟨path, rfl, rfl⟩
    · rintro ⟨_, hpath, rfl⟩
      rw [Option.some.inj hpath]

/-- Shaping is exact, for a record of any shape under any header.  It goes through if every field that
is reached through records has a type, and fails for the first path without one.  When it goes
through, each of these fields is in shape, or gone with a record around it that had only empty fields;
all texts are kept in their order; and shaping once more changes nothing. -/
theorem settle_shape_exact (layout : Layout) (sheet : Worksheet) (row : Nat) (record : Record) :
    ((∃ shaped, settle sheet row (shape layout "" record) = .ok shaped) ↔
      ∀ field ∈ reached "" (.record record), (layout.type? field.1).isSome) ∧
    (∀ fault, settle sheet row (shape layout "" record) = .error fault ↔
      ∃ path, ((reached "" (.record record)).map Prod.fst).find?
          (fun path => (layout.type? path).isNone) = some path ∧
        fault = .untypedField sheet.name row path) ∧
    ∀ shaped, settle sheet row (shape layout "" record) = .ok shaped →
      Entries.names shaped = Entries.names record ∧
      (∀ path old new, Stays "" record shaped path old new → layout.Shapes path old new) ∧
      (∀ field ∈ reached "" (.record record), NotLost "" record shaped field) ∧
      texts (.record shaped) = texts (.record record) ∧
      settle sheet row (shape layout "" shaped) = .ok shaped := by
  have huntyped : (shape layout "" record).untyped? = _ :=
    Record.untyped?_shape_of_forall fun field _ => Record.untyped?_shapeValue field.2 _
  refine ⟨?_, fun fault => ?_, fun shaped hshaped => ?_⟩
  · rw [exists_settle_eq_ok_iff, huntyped, List.find?_eq_none, List.forall_mem_map]
    simp only [Option.isNone_iff_eq_none, ← Option.isSome_iff_ne_none]
  · rw [settle_eq_error_iff, huntyped]
  · rw [settle_eq_ok_iff] at hshaped ⊢
    have htyped := Record.typed_of_shape
      (fun field _ inner value => Record.typed_of_shapeValue field.2 inner value) hshaped
    rw [Record.shape_of_typed htyped, Progress.done.injEq] at hshaped
    subst hshaped
    refine ⟨Record.names_shapedFields _ _ _, fun path old new h => ?_, ?_, ?_, ?_⟩
    · obtain ⟨rfl, hinner⟩ := h.eq_wrapAt_shaped rfl htyped
      exact Record.shapes_wrapAt_shaped hinner
    · exact Record.notLost_shapedFields _ "" record rfl
    · have htexts : texts (Record.shaped layout "" (.record record)) = _ :=
        Record.texts_shaped _ _
      rwa [Record.shaped, Value.texts_collapse] at htexts
    · rw [Record.shape_of_typed (Record.typed_shapedFields htyped),
        Record.shapedFields_shapedFields]

/-- Types for a book: its author and its seal are objects, and it has a list of chapters, each with a
list of notes. -/
def bookLayout : Layout where
  schema.types := [("Title", "string"), ("Author", "object"), ("Author.Name", "string"),
    ("Author.Born", "int"), ("Seal", "object"), ("Seal.Color", "string"), ("Errata", "string"),
    ("Chapters", "list"), ("Chapters.Heading", "string"), ("Chapters.Notes", "list")]
  settings.caseSensitive := true

/-- A book with a blank seal and a list in a field that is none. -/
def book : Record :=
  [("Title", .scalar "Tides"), ("Author", .record [("Name", .scalar "Ada"), ("Born", .null)]),
    ("Seal", .record [("Color", .scalar "")]), ("Errata", .list [.null]),
    ("Chapters", .record [("Heading", .null), ("Notes", .scalar "dry")])]

/-- The sheet that the book is read from. -/
def books : Worksheet := Grid.worksheet { name := "Books" }

/-- The book in shape. -/
def shapedBook : Record :=
  [("Title", .scalar "Tides"), ("Author", .record [("Name", .scalar "Ada"), ("Born", .null)]),
    ("Seal", .null), ("Errata", .list [.null]),
    ("Chapters", .list [.record [("Heading", .null), ("Notes", .list [.scalar "dry"])]])]

/-- The chapter of the book and the notes in it are wrapped, the seal has become nothing, and a book
with a second name of its author and a price is stopped at the name. -/
theorem book_settle_shape_exact :
    settle books 5 (shape bookLayout "" book) = .ok shapedBook ∧
    bookLayout.Shapes "Chapters.Notes" (.scalar "dry") (.list [.scalar "dry"]) ∧
    NotLost "" book shapedBook ("Seal.Color", .scalar "") ∧
    texts (.record shapedBook) = ["Tides", "Ada", "dry"] ∧
    settle books 5 (shape bookLayout "" shapedBook) = .ok shapedBook ∧
    settle books 5 (shape bookLayout ""
        [("Author", .record [("Name", .scalar "Ada"), ("Middle", .null)]), ("Price", .null)]) =
      .error (.untypedField "Books" 5 "Author.Middle") := by
  have hshaped : settle books 5 (shape bookLayout "" book) = .ok shapedBook := by
    rw [settle_eq_ok_iff]
    decide +kernel
  obtain ⟨-, -, hexact⟩ := settle_shape_exact bookLayout books 5 book
  obtain ⟨-, hshapes, hkept, htexts, hagain⟩ := hexact shapedBook hshaped
  refine ⟨hshaped, ?_, hkept _ (by decide +kernel), htexts.trans (by decide +kernel), hagain, ?_⟩
  · have hpath : FieldPath.extend (FieldPath.extend "" "Chapters") "Notes" = "Chapters.Notes" := by
      decide +kernel
    rw [← hpath]
    refine hshapes _ _ _ (.deeper (.field (i := 4) rfl rfl) (Or.inr rfl) ?_)
    exact .field (i := 1) rfl rfl
  · obtain ⟨-, herror, -⟩ := settle_shape_exact bookLayout books 5
      [("Author", .record [("Name", .scalar "Ada"), ("Middle", .null)]), ("Price", .null)]
    exact (herror _).mpr ⟨"Author.Middle", by decide +kernel, rfl⟩

end CompiledSheet

end SheetCompiler
