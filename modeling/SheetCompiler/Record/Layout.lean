import SheetCompiler.Header.Schema

/-!
# The layout of records

The stages between a worksheet row and a finished record ask a header three things about a field
path: its type tag, whether that tag makes the field a list, and the text for blank leaves.  They
also need the depth below which items are no longer merged.  `Layout` answers these questions.

Shaping a record may meet a field whose path has no type.  `Progress` is the outcome of such a walk:
the finished value, or the path at which it stopped together with the value as it was left then.
-/

namespace SheetCompiler

/-- The declarations and settings that shape records. -/
structure Layout where
  schema : Schema
  settings : Settings

namespace Layout

/-- The type tag of a field path. -/
def type? (layout : Layout) (path : String) : Option String :=
  Entries.get? path layout.schema.types

/-- Whether a field path has the type of a list. -/
def isList (layout : Layout) (path : String) : Bool :=
  (layout.type? path).any layout.settings.isListTag

/-- The text for blank leaves at a field path. -/
def fallback? (layout : Layout) (path : String) : Option String :=
  Entries.get? path layout.schema.fallbacks

/-- Whether items may still be merged below a field path. -/
def mergesBelow (layout : Layout) (path : String) : Bool :=
  FieldPath.depth path ≤ layout.settings.maxDepth

/-- A path without a type is no list. -/
theorem isList_of_type?_none {layout : Layout} {path : String}
    (h : layout.type? path = none) : layout.isList path = false := by
  simp [isList, h]

theorem isList_of_type? {layout : Layout} {path tag : String}
    (h : layout.type? path = some tag) : layout.isList path = layout.settings.isListTag tag := by
  simp [isList, h]

end Layout

/-- The outcome of changing a value field by field. -/
inductive Progress (α : Type) where
  /-- Every field was gone through. -/
  | done (value : α)
  /-- A field path without a type was met; the value is as it was left then. -/
  | stopped (path : String) (value : α)
  deriving DecidableEq

namespace Progress

variable {α β : Type}

/-- The value, finished or not. -/
def value : Progress α → α
  | done value => value
  | stopped _ value => value

/-- The untyped path, if there was one. -/
def untyped? : Progress α → Option String
  | done _ => none
  | stopped path _ => some path

/-- Put the value back into what surrounds it. -/
def map (f : α → β) : Progress α → Progress β
  | done value => done (f value)
  | stopped path value => stopped path (f value)

@[simp] theorem untyped?_map (f : α → β) (progress : Progress α) :
    (progress.map f).untyped? = progress.untyped? := by
  cases progress <;> rfl

@[simp] theorem map_done (f : α → β) (value : α) : (done value).map f = done (f value) := rfl

end Progress

end SheetCompiler
