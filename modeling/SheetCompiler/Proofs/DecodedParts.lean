import SheetCompiler.Proofs.ReaderRests

/-!
# Values from the parts of a text

A decoder of a text is only ever run at the ends of that text, because every reader leaves one.  So what
holds of the values that a decoder gives at all ends of the text (`Json.Gives`) holds of the items of its
arrays (`Json.gives_list`), and a condition that every field keeps holds of a structured value
(`Json.gives_structured`).
-/

namespace SheetCompiler.Json

open Text (Bytes)

variable {α σ : Type} {whole bytes : Bytes} {P : α → Prop} {Q : σ → Prop}

/-- At every end of a text, a reader gives what has a property and leaves an end of the text. -/
def Gives (whole : Bytes) (P : α → Prop) (reader : Scanner α) : Prop :=
  ∀ ⦃bytes value rest⦄, bytes <:+ whole → reader bytes = .ok (value, rest) →
    P value ∧ rest <:+ whole

theorem wrongForm_ne_ok (read : α × Bytes) : wrongForm bytes ≠ .ok read := by
  intro h
  cases bytes with
  | nil => cases h
  | cons b bytes =>
    rw [wrongForm] at h
    split at h
    · cases h
    · cases hsingle : single (b :: bytes) <;> rw [hsingle] at h <;> cases h

/-! ## Single values -/

theorem gives_text (whole : Bytes) (room : Nat) : Gives whole (fun _ => True) (text room) := by
  intro bytes value rest hbytes h
  refine ⟨trivial, List.IsSuffix.trans ?_ ((skipSpace_suffix bytes).trans hbytes)⟩
  rw [text] at h
  split at h
  · cases h
  · rename_i b after hspace
    rw [hspace]
    split at h
    · exact (takesFront_quoted h).trans (List.suffix_cons b after)
    · exact absurd h (wrongForm_ne_ok _)

theorem gives_natural (whole : Bytes) (room : Nat) :
    Gives whole (fun _ => True) (natural room) := by
  intro bytes value rest hbytes h
  refine ⟨trivial, List.IsSuffix.trans ?_ ((skipSpace_suffix bytes).trans hbytes)⟩
  rw [natural] at h
  split at h
  · cases h
  · rename_i b after hspace
    rw [hspace]
    split at h
    · rename_i hsingle
      exact (Prod.mk.inj (Except.ok.inj h)).2 ▸ takesFront_single hsingle
    · exact absurd h (wrongForm_ne_ok _)

/-! ## Arrays -/

theorem gives_items {item : Scanner α} (hitem : Gives whole P item) (steps : Nat) (first : Bool)
    {done : List α} (hdone : ∀ value ∈ done, P value) :
    Gives whole (fun values => ∀ value ∈ values, P value) (items item steps first done) := by
  intro bytes values rest hbytes h
  induction steps generalizing first done bytes with
  | zero => cases h
  | succ steps ih =>
    rw [items] at h
    split at h
    · cases h
    · split at h
      · cases h
      · rename_i hend
        obtain ⟨rfl, rfl⟩ := Prod.mk.inj (Except.ok.inj h)
        exact ⟨fun value hvalue => hdone value (List.mem_reverse.mp hvalue),
          (endArray_suffix hend).trans hbytes⟩
    · rename_i hnext
      split at h
      · cases h
      · rename_i hread
        obtain ⟨hvalue, hrest⟩ := hitem ((nextItem?_suffix hnext).trans hbytes) hread
        exact ih false (List.forall_mem_cons.mpr ⟨hvalue, hdone⟩) hrest h

theorem gives_list {item : Decoder α} (hitem : ∀ room, Gives whole P (item room)) (room : Nat) :
    Gives whole (fun values => ∀ value ∈ values, P value) (list item room) := by
  intro bytes values rest hbytes h
  rw [list] at h
  split at h
  · cases h
  · rename_i hspace
    have hafter := (suffix_of_skipSpace hspace).trans hbytes
    split at h
    · split at h
      · cases h
      · exact gives_items (hitem _) _ true (fun _ hnone => absurd hnone List.not_mem_nil) hafter h
    · exact absurd h (wrongForm_ne_ok _)

/-! ## Structured values -/

/-- A field that keeps a condition on the structured value, at all ends of a text. -/
def Field.Keeps (whole : Bytes) (Q : σ → Prop) (field : Field σ) : Prop :=
  ∀ room, Gives whole (fun change => ∀ state, Q state → Q (change state)) (field.read room)

theorem Field.keeps_of {decoder : Decoder α} (hdecoder : ∀ room, Gives whole P (decoder room))
    {set : α → σ → σ} (hset : ∀ value state, P value → Q state → Q (set value state))
    (name : String) (needed : Bool) : (Field.of name needed decoder set).Keeps whole Q := by
  intro room bytes change rest hbytes h
  dsimp only [Field.of] at h
  split at h
  · rename_i hread
    obtain ⟨rfl, rfl⟩ := Prod.mk.inj (Except.ok.inj h)
    obtain ⟨hvalue, hrest⟩ := hdecoder room hbytes hread
    exact ⟨fun state => hset _ state hvalue, hrest⟩
  · cases h

variable {fields : List (Field σ)}

theorem gives_fieldMembers (hfields : ∀ field ∈ fields, field.Keeps whole Q) (room steps : Nat)
    (seen : List String) (first : Bool) {state : σ} (hstate : Q state) :
    Gives whole Q (fieldMembers fields room steps seen first state) := by
  intro bytes value rest hbytes h
  induction steps generalizing seen first state bytes with
  | zero => cases h
  | succ steps ih =>
    rw [fieldMembers] at h
    split at h
    · cases h
    · rename_i hnext
      split at h
      · obtain ⟨rfl, rfl⟩ := Prod.mk.inj (Except.ok.inj h)
        exact ⟨hstate, (takesFront_nextName? first hnext).trans hbytes⟩
      · cases h
    · rename_i hnext
      have hname := (takesFront_nextName? first hnext).trans hbytes
      split at h
      · rename_i field hfind
        split at h
        · cases h
        · split at h
          · cases h
          · rename_i hcolon
            split at h
            · cases h
            · rename_i hread
              obtain ⟨hchange, hrest⟩ := hfields field (List.mem_of_find?_eq_some hfind) room
                ((colon_suffix hcolon).trans hname) hread
              exact ih _ false (hchange state hstate) hrest h
      · split at h
        · cases h
        · rename_i hcolon
          split at h
          · cases h
          · rename_i hskip
            exact ih seen false hstate
              (((skipValue_suffix hskip).trans (colon_suffix hcolon)).trans hname) h

theorem gives_fieldItems (hfields : ∀ field ∈ fields, field.Keeps whole Q) (room : Nat)
    (first : Bool) {state : σ} (hstate : Q state) :
    Gives whole Q (fieldItems room fields first state) := by
  intro bytes value rest hbytes h
  induction fields generalizing first state bytes with
  | nil =>
    rw [fieldItems] at h
    split at h
    · rename_i hend
      obtain ⟨rfl, rfl⟩ := Prod.mk.inj (Except.ok.inj h)
      exact ⟨hstate, (endArray_suffix hend).trans hbytes⟩
    · cases h
  | cons field fields ih =>
    obtain ⟨hfield, hfields⟩ := List.forall_mem_cons.mp hfields
    rw [fieldItems] at h
    split at h
    · cases h
    · split at h
      · cases h
      · exact ih hfields first hstate hbytes h
    · rename_i hnext
      split at h
      · cases h
      · rename_i hread
        obtain ⟨hchange, hrest⟩ := hfield room ((nextItem?_suffix hnext).trans hbytes) hread
        exact ih hfields false (hchange state hstate) hrest h

theorem gives_structured (hfields : ∀ field ∈ fields, field.Keeps whole Q) {start : σ}
    (hstart : Q start) (room : Nat) : Gives whole Q (structured fields start room) := by
  intro bytes value rest hbytes h
  rw [structured] at h
  split at h
  · cases h
  · rename_i hspace
    have hafter := (suffix_of_skipSpace hspace).trans hbytes
    split at h
    · split at h
      · cases h
      · exact gives_fieldItems hfields _ true hstart hafter h
    · split at h
      · split at h
        · cases h
        · exact gives_fieldMembers hfields _ _ [] true hstart hafter h
      · exact absurd h (wrongForm_ne_ok _)

/-! ## Documents -/

theorem Gives.of_decode {decoder : Decoder α} (hdecoder : Gives bytes P (decoder maxRoom)) {value : α}
    (h : decode decoder bytes = .ok value) : P value := by
  rw [decode] at h
  split at h
  · cases h
  · rename_i hread
    split at h
    · obtain rfl := Except.ok.inj h
      exact (hdecoder List.suffix_rfl hread).1
    · cases h

end SheetCompiler.Json
