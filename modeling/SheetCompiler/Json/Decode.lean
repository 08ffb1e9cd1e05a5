import SheetCompiler.Json.Skip

/-!
# Decoding JSON texts

A decoder reads a value of an expected form from a JSON text.  A value of another form is a
`mismatch`, but a breach of the grammar inside a single value is found first.  Arrays and objects may
be nested up to a fixed depth, which is counted down as `room`.

A structured value is described by its fields (`Field`).  It may be written as an object, where other
members are skipped and no field may come twice, or as an array of the fields in their order, where
fields may be missing from the end.
-/

namespace SheetCompiler.Json

open Text (Bytes)

/-- A reader of a value, with the number of enclosures that may still be opened. -/
abbrev Decoder (α : Type) := (room : Nat) → Scanner α

/-- The number of enclosures that may be opened inside one another. -/
def maxRoom : Nat := 127

/-! ## Values of another form -/

/-- The flaw of a value that is not of the expected form. -/
def wrongForm {α : Type} : Scanner α
  | [] => .error .truncated
  | b :: rest =>
    if b = byte '[' ∨ b = byte '{' then .error .mismatch
    else
      match single (b :: rest) with
      | .ok _ => .error .mismatch
      | .error flaw => .error flaw

/-! ## Items and members -/

/-- The place of the next item of an array: nothing at the end of the array, which is left to be
read. -/
def nextItem? (first : Bool) (bytes : Bytes) : Except Flaw (Option Bytes) :=
  match skipSpace bytes with
  | [] => .error .truncated
  | b :: rest =>
    if b = byte ']' then .ok none
    else if first then .ok (some (b :: rest))
    else if b = byte ',' then
      match skipSpace rest with
      | [] => .error .truncated
      | c :: after => if c = byte ']' then .error .malformed else .ok (some (c :: after))
    else .error .malformed

/-- Read the end of an array. -/
def endArray (bytes : Bytes) : Except Flaw Bytes :=
  match skipSpace bytes with
  | [] => .error .truncated
  | b :: rest => if b = byte ']' then .ok rest else .error .malformed

/-- Read the items of an array behind its bracket; those that were read are kept last first.  Every
item takes at least one byte. -/
def items {α : Type} (item : Scanner α) :
    (steps : Nat) → (first : Bool) → List α → Scanner (List α)
  | 0, _, _, _ => .error .truncated
  | steps + 1, first, done, bytes =>
    match nextItem? first bytes with
    | .error flaw => .error flaw
    | .ok none =>
      match endArray bytes with
      | .error flaw => .error flaw
      | .ok rest => .ok (done.reverse, rest)
    | .ok (some bytes) =>
      match item bytes with
      | .error flaw => .error flaw
      | .ok (value, rest) => items item steps false (value :: done) rest

/-- Read the name of a member. -/
def name : Scanner String
  | [] => .error .truncated
  | b :: rest => if b = byte '"' then quoted rest else .error .malformed

/-- The next name of an object, or nothing behind the end of the object. -/
def nextName? (first : Bool) (bytes : Bytes) : Except Flaw (Option String × Bytes) :=
  match skipSpace bytes with
  | [] => .error .truncated
  | b :: rest =>
    if b = byte '}' then .ok (none, rest)
    else if !first ∧ b ≠ byte ',' then .error .malformed
    else
      match name (if first then b :: rest else skipSpace rest) with
      | .ok (name, rest) => .ok (some name, rest)
      | .error flaw => .error flaw

/-- Read the colon behind a name. -/
def colon (bytes : Bytes) : Except Flaw Bytes :=
  match skipSpace bytes with
  | [] => .error .truncated
  | b :: rest => if b = byte ':' then .ok rest else .error .malformed

/-- Read the members of an object behind its brace.  A repeated name keeps its first place and takes
its last value. -/
def members {α : Type} (member : Scanner α) :
    (steps : Nat) → (first : Bool) → Entries α → Scanner (Entries α)
  | 0, _, _, _ => .error .truncated
  | steps + 1, first, done, bytes =>
    match nextName? first bytes with
    | .error flaw => .error flaw
    | .ok (none, rest) => .ok (done, rest)
    | .ok (some name, rest) =>
      match colon rest with
      | .error flaw => .error flaw
      | .ok rest =>
        match member rest with
        | .error flaw => .error flaw
        | .ok (value, rest) => members member steps false (Entries.put name value done) rest

/-! ## Values of any form -/

/-- Read a value, the enclosed ones with the given reader; without one nothing may be opened. -/
def value (inner : Option (Scanner Json)) : Scanner Json := fun bytes =>
  match skipSpace bytes with
  | [] => .error .truncated
  | b :: rest =>
    if b = byte '[' then
      match inner with
      | some item => asTree .array (items item (rest.length + 1) true [] rest)
      | none => .error .malformed
    else if b = byte '{' then
      match inner with
      | some member => asTree .object (members member (rest.length + 1) true [] rest)
      | none => .error .malformed
    else single (b :: rest)

/-- Read a value of any form. -/
def tree : Decoder Json
  | 0 => value none
  | room + 1 => value (some (tree room))

/-! ## Values of an expected form -/

/-- Read a text. -/
def text : Decoder String := fun _ bytes =>
  match skipSpace bytes with
  | [] => .error .truncated
  | b :: rest => if b = byte '"' then quoted rest else wrongForm (b :: rest)

/-- Read a truth value. -/
def flag : Decoder Bool := fun _ bytes =>
  match skipSpace bytes with
  | [] => .error .truncated
  | b :: rest =>
    match single (b :: rest) with
    | .ok (.bool value, rest) => .ok (value, rest)
    | _ => wrongForm (b :: rest)

/-- Read a natural number of 64 bits. -/
def natural : Decoder Nat := fun _ bytes =>
  match skipSpace bytes with
  | [] => .error .truncated
  | b :: rest =>
    match single (b :: rest) with
    | .ok (.number (.natural value), rest) => .ok (value, rest)
    | _ => wrongForm (b :: rest)

/-- Read an array of values of one form. -/
def list {α : Type} (item : Decoder α) : Decoder (List α) := fun room bytes =>
  match skipSpace bytes with
  | [] => .error .truncated
  | b :: rest =>
    if b = byte '[' then
      match room with
      | 0 => .error .malformed
      | room + 1 => items (item room) (rest.length + 1) true [] rest
    else wrongForm (b :: rest)

/-! ## Structured values -/

/-- A field of a structured value. -/
structure Field (σ : Type) where
  name : String
  /-- Whether the field must be present. -/
  needed : Bool
  /-- How the field is read and written into the value. -/
  read : Decoder (σ → σ)

/-- A field of a form, with what its value changes. -/
def Field.of {α σ : Type} (name : String) (needed : Bool) (decoder : Decoder α)
    (set : α → σ → σ) : Field σ :=
  ⟨name, needed, fun room bytes =>
    match decoder room bytes with
    | .ok (value, rest) => .ok (set value, rest)
    | .error flaw => .error flaw⟩

/-- Whether all fields that must be present have been seen. -/
def complete {σ : Type} (fields : List (Field σ)) (seen : List String) : Bool :=
  fields.all fun field => !field.needed || seen.contains field.name

/-- Read the fields of an object behind its brace. -/
def fieldMembers {σ : Type} (fields : List (Field σ)) (room : Nat) :
    (steps : Nat) → (seen : List String) → (first : Bool) → σ → Scanner σ
  | 0, _, _, _, _ => .error .truncated
  | steps + 1, seen, first, state, bytes =>
    match nextName? first bytes with
    | .error flaw => .error flaw
    | .ok (none, rest) => if complete fields seen then .ok (state, rest) else .error .mismatch
    | .ok (some name, rest) =>
      match fields.find? fun field => field.name == name with
      | some field =>
        if seen.contains name then .error .mismatch
        else
          match colon rest with
          | .error flaw => .error flaw
          | .ok rest =>
            match field.read room rest with
            | .error flaw => .error flaw
            | .ok (change, rest) =>
              fieldMembers fields room steps (name :: seen) false (change state) rest
      | none =>
        match colon rest with
        | .error flaw => .error flaw
        | .ok rest =>
          match skipValue rest with
          | .error flaw => .error flaw
          | .ok rest => fieldMembers fields room steps seen false state rest

/-- Read the fields of an array behind its bracket. -/
def fieldItems {σ : Type} (room : Nat) :
    (fields : List (Field σ)) → (first : Bool) → σ → Scanner σ
  | [], _, state, bytes =>
    match endArray bytes with
    | .ok rest => .ok (state, rest)
    | .error flaw => .error flaw
  | field :: fields, first, state, bytes =>
    match nextItem? first bytes with
    | .error flaw => .error flaw
    | .ok none =>
      if field.needed then .error .mismatch else fieldItems room fields first state bytes
    | .ok (some bytes) =>
      match field.read room bytes with
      | .error flaw => .error flaw
      | .ok (change, rest) => fieldItems room fields false (change state) rest

/-- Read a structured value; fields that are missing keep what they are at the start. -/
def structured {σ : Type} (fields : List (Field σ)) (start : σ) : Decoder σ := fun room bytes =>
  match skipSpace bytes with
  | [] => .error .truncated
  | b :: rest =>
    if b = byte '[' then
      match room with
      | 0 => .error .malformed
      | room + 1 => fieldItems room fields true start rest
    else if b = byte '{' then
      match room with
      | 0 => .error .malformed
      | room + 1 => fieldMembers fields room (rest.length + 1) [] true start rest
    else wrongForm (b :: rest)

/-! ## Documents -/

/-- Read a whole text. -/
def decode {α : Type} (decoder : Decoder α) (bytes : Bytes) : Except Flaw α :=
  match decoder maxRoom bytes with
  | .error flaw => .error flaw
  | .ok (value, rest) => if (skipSpace rest).isEmpty then .ok value else .error .malformed

end SheetCompiler.Json
