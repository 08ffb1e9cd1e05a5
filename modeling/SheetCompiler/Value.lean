import SheetCompiler.Entries

/-!
# Values of compiled worksheets

A compiled cell, nested object or repeating group is a tree of nothing, text, ordered fields and
lists.  Emptiness is one rule for the whole project: nothing, empty text and the empty list are
empty, and a record is empty when all its fields are.  A list that holds only empty values is not
empty, since it still says how many items there were.
-/

namespace SheetCompiler

/-- A value: nothing, the text of a cell, named fields in order, or items in row order. -/
inductive Value where
  | null
  | scalar (text : String)
  | record (fields : List (String × Value))
  | list (items : List Value)
  deriving Inhabited

/-- The fields of a record value. -/
abbrev Record := Entries Value

namespace Value

/-! ## Emptiness -/

mutual

/-- Whether there is nothing to report in a value. -/
def isEmpty : Value → Bool
  | .null => true
  | .scalar text => text.isEmpty
  | .record fields => fieldsEmpty fields
  | .list items => items.isEmpty

/-- Whether every field is empty; so it is for no fields at all. -/
def fieldsEmpty : List (String × Value) → Bool
  | [] => true
  | (_, value) :: rest => isEmpty value && fieldsEmpty rest

end

/-- Whether the value is nothing at all. -/
def isNull : Value → Bool
  | .null => true
  | _ => false

/-- A record without anything to report counts as nothing; every other value stays. -/
def collapse : Value → Value
  | .record fields => if fieldsEmpty fields then .null else .record fields
  | value => value

@[simp] theorem isEmpty_null : isEmpty .null = true := by simp [isEmpty]

@[simp] theorem isEmpty_scalar (text : String) : isEmpty (.scalar text) = text.isEmpty := by
  simp [isEmpty]

@[simp] theorem isEmpty_list (items : List Value) : isEmpty (.list items) = items.isEmpty := by
  simp [isEmpty]

@[simp] theorem isEmpty_record (fields : List (String × Value)) :
    isEmpty (.record fields) = fieldsEmpty fields := by
  simp [isEmpty]

@[simp] theorem fieldsEmpty_nil : fieldsEmpty [] = true := by simp [fieldsEmpty]

@[simp] theorem fieldsEmpty_cons (field : String × Value) (rest : List (String × Value)) :
    fieldsEmpty (field :: rest) = (isEmpty field.2 && fieldsEmpty rest) := by
  simp [fieldsEmpty]

/-- Field by field: a record is empty exactly when no field has anything to report. -/
theorem fieldsEmpty_iff (fields : List (String × Value)) :
    fieldsEmpty fields = true ↔ ∀ field ∈ fields, isEmpty field.2 = true := by
  induction fields with
  | nil => simp
  | cons field rest ih => simp [ih]

/-! ## Looking inside -/

/-- The text of a scalar. -/
def scalar? : Value → Option String
  | .scalar text => some text
  | _ => none

/-- The fields of a record. -/
def record? : Value → Option Record
  | .record fields => some fields
  | _ => none

/-- The items of a list. -/
def list? : Value → Option (List Value)
  | .list items => some items
  | _ => none

/-- The field of a record with this name. -/
def get? (name : String) : Value → Option Value
  | .record fields => Entries.get? name fields
  | _ => none

/-! ## Equality -/

mutual

/-- Two values are compared node by node, fields and items in order. -/
def decEq : (a b : Value) → Decidable (a = b)
  | .null, .null => isTrue rfl
  | .scalar s, .scalar t =>
    if h : s = t then isTrue (h ▸ rfl) else isFalse (fun e => h (Value.scalar.inj e))
  | .record a, .record b =>
    match decEqFields a b with
    | isTrue h => isTrue (h ▸ rfl)
    | isFalse h => isFalse (fun e => h (Value.record.inj e))
  | .list a, .list b =>
    match decEqItems a b with
    | isTrue h => isTrue (h ▸ rfl)
    | isFalse h => isFalse (fun e => h (Value.list.inj e))
  | .null, .scalar _ | .null, .record _ | .null, .list _ => isFalse (by simp)
  | .scalar _, .null | .scalar _, .record _ | .scalar _, .list _ => isFalse (by simp)
  | .record _, .null | .record _, .scalar _ | .record _, .list _ => isFalse (by simp)
  | .list _, .null | .list _, .scalar _ | .list _, .record _ => isFalse (by simp)

/-- Equality of fields, in order. -/
def decEqFields : (a b : List (String × Value)) → Decidable (a = b)
  | [], [] => isTrue rfl
  | (m, v) :: a, (n, w) :: b =>
    if hn : m = n then
      match decEq v w, decEqFields a b with
      | isTrue hv, isTrue hr => isTrue (by rw [hn, hv, hr])
      | isFalse hv, _ => isFalse (by simp [hv])
      | _, isFalse hr => isFalse (by simp [hr])
    else isFalse (by simp [hn])
  | [], _ :: _ | _ :: _, [] => isFalse (by simp)

/-- Equality of items, in order. -/
def decEqItems : (a b : List Value) → Decidable (a = b)
  | [], [] => isTrue rfl
  | v :: a, w :: b =>
    match decEq v w, decEqItems a b with
    | isTrue hv, isTrue hr => isTrue (by rw [hv, hr])
    | isFalse hv, _ => isFalse (by simp [hv])
    | _, isFalse hr => isFalse (by simp [hr])
  | [], _ :: _ | _ :: _, [] => isFalse (by simp)

end

instance : DecidableEq Value := decEq

end Value

end SheetCompiler
