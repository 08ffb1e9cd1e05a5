import SheetCompiler.Record.Layout

/-!
# The shape of records

`Record.shape` brings a record into the shape that its header declares.  A nested record without
anything to report becomes nothing, from the inside out, and whatever a field of list type holds is
wrapped into a list of one item unless it is nothing or a list already.  Lists are not looked into.
Every field on the way must have a type.

`Record.prune` restores emptiness after a record has grown: empty nested records become nothing and
items that are nothing leave their lists.
-/

namespace SheetCompiler

namespace Value

/-- The value of a field of list type: one item, unless it is nothing or a list already. -/
def wrap : Value → Value
  | .null => .null
  | .list items => .list items
  | value => .list [value]

@[simp] theorem wrap_null : wrap .null = .null := rfl

@[simp] theorem wrap_list (items : List Value) : wrap (.list items) = .list items := rfl

@[simp] theorem wrap_scalar (text : String) : wrap (.scalar text) = .list [.scalar text] := rfl

@[simp] theorem wrap_record (fields : List (String × Value)) :
    wrap (.record fields) = .list [.record fields] := rfl

end Value

namespace Record

mutual

/-- Shape a value at a field path, the wrapping of list fields apart. -/
def shapeValue (layout : Layout) (path : String) : Value → Progress Value
  | .record fields =>
    match shape layout path fields with
    | .done fields => .done (Value.collapse (.record fields))
    | .stopped untyped fields => .stopped untyped (.record fields)
  | .null => .done .null
  | .scalar text => .done (.scalar text)
  | .list items => .done (.list items)

/-- Shape the fields below a field path, one after another. -/
def shape (layout : Layout) (path : String) : List (String × Value) → Progress Record
  | [] => .done []
  | (name, value) :: rest =>
    let inner := FieldPath.extend path name
    match layout.type? inner with
    | none => .stopped inner ((name, value) :: rest)
    | some tag =>
      match shapeValue layout inner value with
      | .stopped untyped value => .stopped untyped ((name, value) :: rest)
      | .done value =>
        let shaped := if layout.settings.isListTag tag then Value.wrap value else value
        (shape layout path rest).map fun fields => (name, shaped) :: fields

end

/-- Shape a value that is an item of the list at a field path. -/
def shapeItem (layout : Layout) (path : String) (item : Value) : Progress Value :=
  shapeValue layout path item

mutual

/-- Prune a value from the inside out. -/
def pruneValue : Value → Value
  | .record fields => Value.collapse (.record (prune fields))
  | .list items => .list (pruneItems items)
  | .null => .null
  | .scalar text => .scalar text

/-- Prune every field. -/
def prune : List (String × Value) → List (String × Value)
  | [] => []
  | (name, value) :: rest => (name, pruneValue value) :: prune rest

/-- Prune every item and drop those that are nothing. -/
def pruneItems : List Value → List Value
  | [] => []
  | item :: rest =>
    let pruned := pruneValue item
    if pruned.isNull then pruneItems rest else pruned :: pruneItems rest

end

theorem prune_eq_map (fields : List (String × Value)) :
    prune fields = fields.map fun field => (field.1, pruneValue field.2) := by
  induction fields with
  | nil => simp [prune]
  | cons field rest ih => simp [prune, ih]

theorem pruneItems_eq_filter (items : List Value) :
    pruneItems items = (items.map pruneValue).filter fun item => !item.isNull := by
  induction items with
  | nil => simp [pruneItems]
  | cons item rest ih => by_cases h : (pruneValue item).isNull <;> simp [pruneItems, ih, h]

/-- Pruning keeps the fields of a record and their order. -/
@[simp] theorem names_prune (fields : List (String × Value)) :
    Entries.names (prune fields) = Entries.names fields := by
  simp [prune_eq_map, Entries.names, Function.comp_def]

end Record

end SheetCompiler
