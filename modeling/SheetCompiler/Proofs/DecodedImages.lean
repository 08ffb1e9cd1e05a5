import Mathlib.Data.List.Forall2
import SheetCompiler.Json.Decode

/-!
# Decoders that make something else of a text

A decoder that gives a function of what another one gives reads the same texts, and stops at the same
place (`Json.image`).  That carries over from the items to an array of them (`Json.list_image`) and from
the fields to a structured value (`Json.structured_image`).  So what a document means can be worked out
on a richer form of it, as long as what the richer form adds has no say in what is accepted
(`Json.decode_image`).
-/

namespace SheetCompiler.Json

open Text (Bytes)

variable {α β σ τ : Type} {f : α → β} {g : σ → τ}

/-- What a function makes of a value that was read. -/
def image (f : α → β) : Except Flaw (α × Bytes) → Except Flaw (β × Bytes)
  | .ok (value, rest) => .ok (f value, rest)
  | .error flaw => .error flaw

/-! ## Arrays -/

/-- A value of another form is never read. -/
theorem wrongForm_image (f : α → β) (bytes : Bytes) :
    wrongForm bytes = image f (wrongForm bytes) := by
  cases bytes with
  | nil => rfl
  | cons b rest =>
    rw [wrongForm, wrongForm]
    split
    · rfl
    · cases single (b :: rest) <;> rfl

theorem items_image {item : Scanner α} {item' : Scanner β}
    (hitem : ∀ bytes, item' bytes = image f (item bytes)) (steps : Nat) (first : Bool)
    (done : List α) (bytes : Bytes) :
    items item' steps first (done.map f) bytes =
      image (List.map f) (items item steps first done bytes) := by
  induction steps generalizing first done bytes with
  | zero => rfl
  | succ steps ih =>
    rw [items, items]
    cases nextItem? first bytes with
    | error flaw => rfl
    | ok next =>
      cases next with
      | none =>
        cases endArray bytes with
        | error flaw => rfl
        | ok rest =>
          dsimp only [image]
          rw [List.map_reverse]
      | some bytes =>
        dsimp only
        rw [hitem]
        cases item bytes with
        | error flaw => rfl
        | ok read => exact ih false (read.1 :: done) read.2

theorem list_image {item : Decoder α} {item' : Decoder β}
    (hitem : ∀ room bytes, item' room bytes = image f (item room bytes)) (room : Nat)
    (bytes : Bytes) : list item' room bytes = image (List.map f) (list item room bytes) := by
  rw [list, list]
  cases skipSpace bytes with
  | nil => rfl
  | cons b rest =>
    dsimp only
    split
    · cases room with
      | zero => rfl
      | succ room => exact items_image (hitem room) _ _ [] rest
    · exact wrongForm_image _ _

/-! ## Structured values -/

/-- Two changes to structured values were read in the same way, or none was. -/
inductive Follows (g : σ → τ) :
    Except Flaw ((σ → σ) × Bytes) → Except Flaw ((τ → τ) × Bytes) → Prop where
  | error (flaw : Flaw) : Follows g (.error flaw) (.error flaw)
  | ok {change : σ → σ} {change' : τ → τ} (h : ∀ state, change' (g state) = g (change state))
      (rest : Bytes) : Follows g (.ok (change, rest)) (.ok (change', rest))

/-- A field of the one form belongs to a field of the other. -/
structure Field.Follows (g : σ → τ) (field : Field σ) (field' : Field τ) : Prop where
  name : field'.name = field.name
  needed : field'.needed = field.needed
  read : ∀ room bytes, Json.Follows g (field.read room bytes) (field'.read room bytes)

theorem Field.follows_of {decoder : Decoder α} {decoder' : Decoder β}
    (hdecoder : ∀ room bytes, decoder' room bytes = image f (decoder room bytes))
    {set : α → σ → σ} {set' : β → τ → τ}
    (hset : ∀ value state, set' (f value) (g state) = g (set value state)) (name : String)
    (needed : Bool) :
    Field.Follows g (Field.of name needed decoder set) (Field.of name needed decoder' set') where
  name := rfl
  needed := rfl
  read room bytes := by
    dsimp only [Field.of]
    rw [hdecoder]
    cases decoder room bytes with
    | error flaw => exact .error flaw
    | ok read => exact .ok (hset read.1) read.2

/-- Fields that are read alike. -/
theorem Field.follows_same {decoder : Decoder α} {set : α → σ → σ} {set' : α → τ → τ}
    (hset : ∀ value state, set' value (g state) = g (set value state)) (name : String)
    (needed : Bool) :
    Field.Follows g (Field.of name needed decoder set) (Field.of name needed decoder set') :=
  Field.follows_of (f := id) (fun room bytes => by cases decoder room bytes <;> rfl) hset name
    needed

variable {fields : List (Field σ)} {fields' : List (Field τ)}

theorem complete_follows (h : List.Forall₂ (Field.Follows g) fields fields') (seen : List String) :
    complete fields' seen = complete fields seen := by
  induction h with
  | nil => rfl
  | cons hfield _ ih =>
    rw [complete, complete, List.all_cons, List.all_cons, hfield.name, hfield.needed]
    exact congrArg _ ih

/-- The fields of a name belong to each other. -/
theorem find?_follows (h : List.Forall₂ (Field.Follows g) fields fields') (name : String) :
    Option.Rel (Field.Follows g) (fields.find? fun field => field.name == name)
      (fields'.find? fun field => field.name == name) := by
  induction h with
  | nil => exact .none
  | @cons field field' _ _ hfield _ ih =>
    rw [List.find?_cons, List.find?_cons, hfield.name]
    cases field.name == name with
    | true => exact .some hfield
    | false => exact ih

theorem fieldMembers_image (h : List.Forall₂ (Field.Follows g) fields fields') (room steps : Nat)
    (seen : List String) (first : Bool) (state : σ) (bytes : Bytes) :
    fieldMembers fields' room steps seen first (g state) bytes =
      image g (fieldMembers fields room steps seen first state bytes) := by
  induction steps generalizing seen first state bytes with
  | zero => rfl
  | succ steps ih =>
    rw [fieldMembers, fieldMembers]
    cases nextName? first bytes with
    | error flaw => rfl
    | ok next =>
      obtain ⟨name, rest⟩ := next
      cases name with
      | none =>
        dsimp only
        rw [complete_follows h]
        split <;> rfl
      | some name =>
        dsimp only
        have hfind := find?_follows h name
        generalize fields.find? _ = found at hfind ⊢
        generalize fields'.find? _ = found' at hfind ⊢
        cases hfind with
        | none =>
          dsimp only
          cases colon rest with
          | error flaw => rfl
          | ok rest =>
            dsimp only
            cases skipValue rest with
            | error flaw => rfl
            | ok rest => exact ih seen false state rest
        | @some field field' hfield =>
          dsimp only
          split
          · rfl
          · cases colon rest with
            | error flaw => rfl
            | ok rest =>
              dsimp only
              have hread := hfield.read room rest
              generalize field.read room rest = read at hread ⊢
              generalize field'.read room rest = read' at hread ⊢
              cases hread with
              | error flaw => rfl
              | ok hchange rest =>
                dsimp only
                rw [hchange]
                exact ih _ false _ rest

theorem fieldItems_image (h : List.Forall₂ (Field.Follows g) fields fields') (room : Nat)
    (first : Bool) (state : σ) (bytes : Bytes) :
    fieldItems room fields' first (g state) bytes =
      image g (fieldItems room fields first state bytes) := by
  induction h generalizing first state bytes with
  | nil =>
    rw [fieldItems, fieldItems]
    cases endArray bytes <;> rfl
  | @cons field field' _ _ hfield _ ih =>
    rw [fieldItems, fieldItems, hfield.needed]
    cases nextItem? first bytes with
    | error flaw => rfl
    | ok next =>
      cases next with
      | none =>
        dsimp only
        split
        · rfl
        · exact ih first state bytes
      | some bytes =>
        dsimp only
        have hread := hfield.read room bytes
        generalize field.read room bytes = read at hread ⊢
        generalize field'.read room bytes = read' at hread ⊢
        cases hread with
        | error flaw => rfl
        | ok hchange rest =>
          dsimp only
          rw [hchange]
          exact ih false _ rest

theorem structured_image (h : List.Forall₂ (Field.Follows g) fields fields') (start : σ)
    (room : Nat) (bytes : Bytes) :
    structured fields' (g start) room bytes = image g (structured fields start room bytes) := by
  rw [structured, structured]
  cases skipSpace bytes with
  | nil => rfl
  | cons b rest =>
    dsimp only
    split
    · cases room with
      | zero => rfl
      | succ room => exact fieldItems_image h room true start rest
    · split
      · cases room with
        | zero => rfl
        | succ room => exact fieldMembers_image h room _ [] true start rest
      · exact wrongForm_image _ _

/-! ## Documents -/

theorem decode_image {decoder : Decoder α} {decoder' : Decoder β}
    (h : ∀ room bytes, decoder' room bytes = image f (decoder room bytes)) (bytes : Bytes) :
    decode decoder' bytes = (decode decoder bytes).map f := by
  rw [decode, decode, h]
  cases decoder maxRoom bytes with
  | error flaw => rfl
  | ok read =>
    dsimp only [image]
    split <;> rfl

end SheetCompiler.Json
