import SheetCompiler.Record.Layout

/-!
# Defaults of blank fields

A header may declare a text for the blank cells of a field.  `Record.fill` writes these texts into
a record: a field whose path has a default takes it when it is blank, and a field without one is
searched for fields below it, also inside the items of a list.  A list of exactly one blank item
counts as blank itself.  Nothing else changes: a filled value is never overwritten.
-/

namespace SheetCompiler

namespace Value

/-- Whether a value is a leaf without text. -/
def isBlankLeaf : Value → Bool
  | .null => true
  | .scalar text => text.isEmpty
  | .record _ | .list _ => false

/-- Write a text into a blank leaf, or into the only item of a list when that is one. -/
def fillLeaf (text : String) : Value → Value
  | .null => .scalar text
  | .scalar old => if old.isEmpty then .scalar text else .scalar old
  | .list [item] => if item.isBlankLeaf then .list [.scalar text] else .list [item]
  | value => value

@[simp] theorem fillLeaf_null (text : String) : fillLeaf text .null = .scalar text := rfl

@[simp] theorem fillLeaf_record (text : String) (fields : List (String × Value)) :
    fillLeaf text (.record fields) = .record fields := rfl

end Value

namespace Record

mutual

/-- Fill the value of a field. -/
def fillField (layout : Layout) (path : String) : Value → Value
  | .record fields =>
    if (layout.fallback? path).isSome then .record fields else .record (fill layout path fields)
  | .list items =>
    match layout.fallback? path with
    | some text => Value.fillLeaf text (.list items)
    | none => .list (fillItems layout path items)
  | .null =>
    match layout.fallback? path with
    | some text => Value.fillLeaf text .null
    | none => .null
  | .scalar old =>
    match layout.fallback? path with
    | some text => Value.fillLeaf text (.scalar old)
    | none => .scalar old

/-- Fill the fields below a field path. -/
def fill (layout : Layout) (path : String) : List (String × Value) → List (String × Value)
  | [] => []
  | (name, value) :: rest =>
    (name, fillField layout (FieldPath.extend path name) value) :: fill layout path rest

/-- Fill the fields of the records among the items of a list. -/
def fillItems (layout : Layout) (path : String) : List Value → List Value
  | [] => []
  | .record fields :: rest => .record (fill layout path fields) :: fillItems layout path rest
  | .null :: rest => .null :: fillItems layout path rest
  | .scalar text :: rest => .scalar text :: fillItems layout path rest
  | .list items :: rest => .list items :: fillItems layout path rest

end

/-- Fill a value that stands at a field path by itself.  The fields of a record are filled even if
the path has a default of its own. -/
def fillValue (layout : Layout) (path : String) : Value → Value
  | .record fields => .record (fill layout path fields)
  | value => fillField layout path value

theorem fill_eq_map (layout : Layout) (path : String) (fields : List (String × Value)) :
    fill layout path fields = fields.map fun field =>
      (field.1, fillField layout (FieldPath.extend path field.1) field.2) := by
  induction fields with
  | nil => simp [fill]
  | cons field rest ih => simp [fill, ih]

/-- Filling keeps the fields of a record and their order. -/
@[simp] theorem names_fill (layout : Layout) (path : String) (fields : List (String × Value)) :
    Entries.names (fill layout path fields) = Entries.names fields := by
  simp [fill_eq_map, Entries.names, Function.comp_def]

end Record

end SheetCompiler
