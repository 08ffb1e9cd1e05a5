import SheetCompiler.Record.Fallback
import SheetCompiler.Record.Shape

/-!
# Rows that continue a record

A record with list fields may span several rows.  A row continues the record above it when nothing
but fields of list type is filled in it and at least one of them is (`Record.absorbs`).  Each of
these fields then contributes its item: it continues the last item of the record's list by the same
rule, or it becomes a further item.

A further item is made from the row as it was read, the way a new record is: defaults first, then
the shape.  A row that does not continue a record leaves it alone.
-/

namespace SheetCompiler

namespace Value

/-- Whether a list starts with an item that is not empty. -/
def offersItem : Value → Bool
  | .list (item :: _) => !item.isEmpty
  | _ => false

/-- The last item of a list. -/
def lastItem? : Value → Option Value
  | .list items => items.getLast?
  | _ => none

/-- Put another value in the place of the last item of a list. -/
def replaceLast (item : Value) : Value → Value
  | .list items => .list (items.dropLast ++ [item])
  | value => value

/-- Add an item at the end of a list; a single value becomes the first item. -/
def addItem (item : Value) : Value → Value
  | .null => .list [item]
  | .list items => .list (items ++ [item])
  | value => .list [value, item]

end Value

namespace Record

/-- Whether the fields of a row below a path continue a record: both are filled, all that is filled
in the row is of list type, and merging is still allowed that deep. -/
def absorbs (layout : Layout) (path : String) (previous candidate : Record) : Bool :=
  !Value.fieldsEmpty previous && layout.mergesBelow path &&
    candidate.all (fun field =>
      layout.isList (FieldPath.extend path field.1) || field.2.isEmpty) &&
    candidate.any fun field =>
      layout.isList (FieldPath.extend path field.1) && field.2.offersItem

/-- The item that a row contributes to the list at a path, from its unshaped form. -/
def freshItem (layout : Layout) (path : String) (raw : Value) : Progress Value :=
  shapeItem layout path (fillValue layout path raw)

/-- Add a further item to what stands at a path. -/
def appendItem (layout : Layout) (path : String) (raw : Value) (slot : Value) : Progress Value :=
  match freshItem layout path raw with
  | .done item => .done (Value.addItem item slot)
  | .stopped untyped _ => .stopped untyped slot

/-- What a row holds unshaped under a name, or else the shaped item itself. -/
def rawItem (name : String) (raw : Record) (item : Value) : Value :=
  match Entries.get? name raw with
  | some .null | none => item
  | some value => value

mutual

/-- Let an item continue the last item of a list, or add it to the list. -/
def contribute (layout : Layout) (path : String) (raw : Value) (slot : Value) :
    (item : Value) → Progress Value
  | .record fields =>
    match slot.lastItem?, raw with
    | some (.record last), .record rawFields =>
      if absorbs layout path last fields then
        (mergeFields layout path rawFields last fields).map fun merged =>
          Value.replaceLast (.record merged) slot
      else appendItem layout path raw slot
    | _, _ => appendItem layout path raw slot
  | .null => appendItem layout path raw slot
  | .scalar _ => appendItem layout path raw slot
  | .list _ => appendItem layout path raw slot

/-- Let each field of list type contribute its first item, unless that is empty. -/
def mergeFields (layout : Layout) (path : String) (raw : Record) (previous : Record) :
    (fields : List (String × Value)) → Progress Record
  | [] => .done previous
  | (name, value) :: rest =>
    let inner := FieldPath.extend path name
    match value with
    | .list (item :: _) =>
      if layout.isList inner && !item.isEmpty then
        let slot := (Entries.get? name previous).getD .null
        match contribute layout inner (rawItem name raw item) slot item with
        | .done merged => mergeFields layout path raw (Entries.put name merged previous) rest
        | .stopped untyped left => .stopped untyped (Entries.put name left previous)
      else mergeFields layout path raw previous rest
    | _ => mergeFields layout path raw previous rest

end

/-- Let a row continue a record, if it does. -/
def merge? (layout : Layout) (previous candidate raw : Record) : Option (Progress Record) :=
  if absorbs layout "" previous candidate then some (mergeFields layout "" raw previous candidate)
  else none

end Record

end SheetCompiler
