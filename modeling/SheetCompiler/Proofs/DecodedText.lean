import Mathlib.Data.List.Forall2
import SheetCompiler.Json.Decode
import SheetCompiler.Proofs.QuotedText

/-!
# Decoding what was written

A decoder reads a value from a text if it gives the value and stops behind the text, whatever follows
(`Json.Reads`).  Texts in quotes are read (`Json.reads_text`, `Json.reads_tree`), arrays are read if
their items are (`Json.reads_list`), and so are objects if every member is one of the fields and none
comes twice (`Json.reads_structured`).  What is read from a text is what the whole text decodes to
(`Json.Reads.decode`).

An array or an object is read in steps, of which there are enough, since each item and each member takes
a byte at least.
-/

namespace SheetCompiler.Json

open Text (Bytes)
open Text.Utf8 (encode encode_append encode_cons)

/-- The reader reads the value from the text and stops behind it.  The text begins with a byte that is
neither a space nor the end of an array. -/
structure Reads {α : Type} (reader : Scanner α) (chars : List Char) (value : α) : Prop where
  opens : ∃ b bytes, encode chars = b :: bytes ∧ isSpace b = false ∧ b ≠ byte ']'
  read : ∀ rest, reader (encode chars ++ rest) = .ok (value, rest)

variable {α σ : Type}

theorem skipSpace_cons {b : UInt8} (h : isSpace b = false) (rest : Bytes) :
    skipSpace (b :: rest) = b :: rest :=
  List.dropWhile_cons_of_neg (Bool.eq_false_iff.mp h)

/-- What a reader reads is not preceded by space. -/
theorem Reads.skipSpace {reader : Scanner α} {chars : List Char} {value : α}
    (h : Reads reader chars value) (rest : Bytes) :
    Json.skipSpace (encode chars ++ rest) = encode chars ++ rest := by
  obtain ⟨b, bytes, hbytes, hspace, -⟩ := h.opens
  rw [hbytes, List.cons_append, skipSpace_cons hspace]

theorem Reads.decode {decoder : Decoder α} {chars : List Char} {value : α}
    (h : Reads (decoder maxRoom) chars value) : decode decoder (encode chars) = .ok value := by
  have hread := h.read []
  rw [List.append_nil] at hread
  rw [Json.decode, hread]
  rfl

/-! ## Texts -/

theorem encode_quote (text : String) :
    encode (quote text) = byte '"' :: encode (text.toList.flatMap escape ++ ['"']) := by
  rw [quote, encode_cons]
  rfl

/-- A text is read from its quotes. -/
theorem reads_text (room : Nat) (text : String) : Reads (Json.text room) (quote text) text where
  opens := ⟨_, _, encode_quote text, by decide, by decide⟩
  read rest := by
    rw [encode_quote, List.cons_append, Json.text, skipSpace_cons (by decide)]
    exact (if_pos rfl).trans (quoted_encode text rest)

theorem exists_tree_eq (room : Nat) : ∃ inner, tree room = value inner := by
  cases room with
  | zero => exact ⟨none, rfl⟩
  | succ room => exact ⟨some (tree room), rfl⟩

/-- A text in quotes is a value of any form. -/
theorem reads_tree (room : Nat) (text : String) :
    Reads (tree room) (chars (.string text)) (.string text) where
  opens := ⟨_, _, by rw [chars, encode_quote], by decide, by decide⟩
  read rest := by
    obtain ⟨inner, hinner⟩ := exists_tree_eq room
    rw [chars, hinner, encode_quote, List.cons_append, value, skipSpace_cons (by decide)]
    dsimp only
    rw [if_neg (by decide), if_neg (by decide), single, if_neg (by decide), if_neg (by decide),
      if_neg (by decide), if_pos rfl, quoted_encode, asTree]

/-! ## Arrays -/

theorem length_lt_itemChars (items : List Json) : items.length < (itemChars items).length := by
  induction items with
  | nil => exact Nat.zero_lt_one
  | cons item items ih =>
    rw [itemChars, List.length_cons, List.length_cons, List.length_append]
    omega

/-- The items behind the first one, up to the end of the array. -/
theorem items_itemChars {item : Scanner α} {jsons : List Json} {values : List α}
    (h : List.Forall₂ (fun json value => Reads item (chars json) value) jsons values)
    {steps : Nat} (hsteps : jsons.length < steps) (done : List α) (rest : Bytes) :
    items item steps false done (encode (itemChars jsons) ++ rest) =
      .ok (done.reverse ++ values, rest) := by
  induction h generalizing steps done with
  | nil =>
    cases steps with
    | zero => cases hsteps
    | succ steps =>
      rw [List.append_nil]
      rfl
  | @cons json value jsons values hfirst _ ih =>
    cases steps with
    | zero => cases hsteps
    | succ steps =>
      have hbytes : encode (itemChars (json :: jsons)) ++ rest =
          byte ',' :: (encode (chars json) ++ (encode (itemChars jsons) ++ rest)) := by
        rw [itemChars, encode_cons, encode_append, List.append_assoc, List.append_assoc]
        rfl
      have hnext : nextItem? false (byte ',' :: (encode (chars json) ++
          (encode (itemChars jsons) ++ rest))) =
            .ok (some (encode (chars json) ++ (encode (itemChars jsons) ++ rest))) := by
        obtain ⟨b, bytes, hopens, -, hclosing⟩ := hfirst.opens
        rw [nextItem?, skipSpace_cons (by decide)]
        dsimp only
        rw [if_neg (by decide), if_neg (by decide), if_pos rfl, hfirst.skipSpace, hopens,
          List.cons_append]
        exact if_neg hclosing
      rw [hbytes, items, hnext]
      simp only [hfirst.read]
      rw [ih (Nat.lt_of_succ_lt_succ hsteps), List.reverse_cons, List.append_assoc,
        List.singleton_append]

/-- An array is read if its items are. -/
theorem reads_list {item : Decoder α} {room : Nat} {jsons : List Json} {values : List α}
    (h : List.Forall₂ (fun json value => Reads (item room) (chars json) value) jsons values) :
    Reads (list item (room + 1)) (chars (.array jsons)) values where
  opens := by
    cases jsons <;> exact ⟨byte '[', _, by rw [chars, encode_cons]; rfl, by decide, by decide⟩
  read rest := by
    cases h with
    | nil => rfl
    | @cons json value jsons values hfirst hrest =>
      have hbytes : encode (chars (.array (json :: jsons))) ++ rest =
          byte '[' :: (encode (chars json) ++ (encode (itemChars jsons) ++ rest)) := by
        rw [chars, encode_cons, encode_append, List.append_assoc, List.append_assoc]
        rfl
      have hnext : nextItem? true (encode (chars json) ++ (encode (itemChars jsons) ++ rest)) =
          .ok (some (encode (chars json) ++ (encode (itemChars jsons) ++ rest))) := by
        obtain ⟨b, bytes, hopens, -, hclosing⟩ := hfirst.opens
        rw [nextItem?, hfirst.skipSpace, hopens, List.cons_append]
        dsimp only
        rw [if_neg hclosing, if_pos rfl]
      have hlength : jsons.length <
          (encode (chars json) ++ (encode (itemChars jsons) ++ rest)).length := by
        have hitems := length_lt_itemChars jsons
        have hencode := Text.Utf8.length_le_encode (itemChars jsons)
        rw [List.length_append, List.length_append]
        omega
      rw [hbytes, list, skipSpace_cons (by decide)]
      dsimp only
      rw [if_pos rfl, items, hnext]
      simp only [hfirst.read]
      exact items_itemChars hrest hlength [value] rest

/-! ## Objects -/

theorem length_lt_memberChars (members : List (String × Json)) :
    members.length < (memberChars members).length := by
  induction members with
  | nil => exact Nat.zero_lt_one
  | cons member members ih =>
    rw [memberChars, List.length_cons, List.length_cons, List.length_append, List.length_cons,
      List.length_append]
    omega

theorem Reads.field {decoder : Decoder α} {room : Nat} {chars : List Char} {value : α}
    (h : Reads (decoder room) chars value) (name : String) (needed : Bool) (set : α → σ → σ) :
    Reads ((Field.of name needed decoder set).read room) chars (set value) where
  opens := h.opens
  read rest := by simp only [Field.of, h.read]

/-- A member is one of the fields, and its value reads as a change to the structured value. -/
def ReadsMember (fields : List (Field σ)) (room : Nat) (member : String × Json)
    (change : σ → σ) : Prop :=
  ∃ field, (fields.find? fun field => field.name == member.1) = some field ∧
    Reads (field.read room) (chars member.2) change

/-- The characters in front of a member: the first one has none. -/
def separator (first : Bool) : List Char := if first then [] else [',']

theorem nextName?_quote (first : Bool) (name : String) (rest : Bytes) :
    nextName? first (encode (separator first) ++ (encode (quote name) ++ rest)) =
      .ok (some name, rest) := by
  have hname : Json.name (byte '"' :: (encode (name.toList.flatMap escape ++ ['"']) ++ rest)) =
      .ok (name, rest) := by
    rw [Json.name]
    exact (if_pos rfl).trans (quoted_encode name rest)
  rw [encode_quote, List.cons_append]
  cases first with
  | true =>
    rw [separator, if_pos rfl, encode, List.flatMap_nil, List.nil_append, nextName?,
      skipSpace_cons (by decide)]
    dsimp only
    rw [if_neg (by decide), if_neg (by decide), if_pos rfl, hname]
  | false =>
    rw [separator, if_neg (by decide), show encode [','] = [byte ','] from rfl,
      List.singleton_append, nextName?, skipSpace_cons (by decide)]
    dsimp only
    rw [if_neg (by decide), if_neg (by decide), if_neg (by decide), skipSpace_cons (by decide),
      hname]

/-- One member of an object. -/
theorem fieldMembers_member {fields : List (Field σ)} {room : Nat} {member : String × Json}
    {change : σ → σ} (h : ReadsMember fields room member change) {seen : List String}
    (hseen : member.1 ∉ seen) (steps : Nat) (first : Bool) (state : σ) (rest : Bytes) :
    fieldMembers fields room (steps + 1) seen first state
        (encode (separator first ++ (quote member.1 ++ ':' :: chars member.2)) ++ rest) =
      fieldMembers fields room steps (member.1 :: seen) false (change state) rest := by
  obtain ⟨field, hfind, hread⟩ := h
  have hbytes : encode (separator first ++ (quote member.1 ++ ':' :: chars member.2)) ++ rest =
      encode (separator first) ++ (encode (quote member.1) ++
        (byte ':' :: (encode (chars member.2) ++ rest))) := by
    rw [encode_append, encode_append, encode_cons, List.append_assoc, List.append_assoc,
      List.append_assoc]
    rfl
  have hcolon : colon (byte ':' :: (encode (chars member.2) ++ rest)) =
      .ok (encode (chars member.2) ++ rest) := by
    rw [colon, skipSpace_cons (by decide)]
    exact if_pos rfl
  have hnew : seen.contains member.1 = false := by
    rw [Bool.eq_false_iff, ne_eq, List.contains_iff_mem]
    exact hseen
  rw [hbytes, fieldMembers, nextName?_quote]
  simp only [hfind, hnew, Bool.false_eq_true, if_false, hcolon, hread.read]

/-- The members behind the first one, up to the end of the object. -/
theorem fieldMembers_memberChars {fields : List (Field σ)} {room : Nat}
    {members : List (String × Json)} {changes : List (σ → σ)}
    (h : List.Forall₂ (ReadsMember fields room) members changes) {seen : List String}
    (hnodup : (members.map Prod.fst ++ seen).Nodup)
    (hcomplete : complete fields ((members.map Prod.fst).reverse ++ seen) = true) {steps : Nat}
    (hsteps : members.length < steps) (state : σ) (rest : Bytes) :
    fieldMembers fields room steps seen false state (encode (memberChars members) ++ rest) =
      .ok (changes.foldl (fun state change => change state) state, rest) := by
  induction h generalizing seen steps state with
  | nil =>
    cases steps with
    | zero => cases hsteps
    | succ steps =>
      have hend : nextName? false (encode (memberChars []) ++ rest) = .ok (none, rest) := rfl
      rw [fieldMembers, hend]
      exact if_pos hcomplete
  | @cons member change members changes hmember _ ih =>
    cases steps with
    | zero => cases hsteps
    | succ steps =>
      have hbytes : encode (memberChars (member :: members)) ++ rest =
          encode (separator false ++ (quote member.1 ++ ':' :: chars member.2)) ++
            (encode (memberChars members) ++ rest) := by
        rw [← List.append_assoc, ← encode_append]
        simp only [memberChars, separator, Bool.false_eq_true, if_false, List.append_assoc,
          List.cons_append, List.nil_append]
      rw [List.map_cons, List.cons_append, List.nodup_cons] at hnodup
      have hseen : member.1 ∉ seen := fun hmem => hnodup.1 (List.mem_append_right _ hmem)
      rw [hbytes, fieldMembers_member hmember hseen]
      refine ih ?_ ?_ (Nat.lt_of_succ_lt_succ hsteps) (change state)
      · exact List.perm_middle.nodup_iff.mpr (List.nodup_cons.mpr hnodup)
      · rw [List.map_cons, List.reverse_cons, List.append_assoc, List.singleton_append] at hcomplete
        exact hcomplete

/-- An object is read if its members are different fields and none that is needed is missing. -/
theorem reads_structured {fields : List (Field σ)} {start : σ} {room : Nat}
    {members : List (String × Json)} {changes : List (σ → σ)}
    (h : List.Forall₂ (ReadsMember fields room) members changes)
    (hnodup : (members.map Prod.fst).Nodup)
    (hcomplete : complete fields (members.map Prod.fst).reverse = true) :
    Reads (structured fields start (room + 1)) (chars (.object members))
      (changes.foldl (fun state change => change state) start) where
  opens := by
    cases members <;> exact ⟨byte '\x7b', _, by rw [chars, encode_cons]; rfl, by decide, by decide⟩
  read rest := by
    cases h with
    | nil =>
      have hend : ∀ rest, nextName? true (byte '\x7d' :: rest) = .ok (none, rest) := fun _ => rfl
      have hbytes : encode (chars (.object [])) ++ rest = byte '\x7b' :: byte '\x7d' :: rest := rfl
      rw [hbytes, structured, skipSpace_cons (by decide)]
      dsimp only
      rw [if_neg (by decide), if_pos rfl, fieldMembers, hend]
      exact if_pos hcomplete
    | @cons member change members changes hmember hrest =>
      have hbytes : encode (chars (.object (member :: members))) ++ rest =
          byte '\x7b' :: (encode (separator true ++ (quote member.1 ++ ':' :: chars member.2)) ++
            (encode (memberChars members) ++ rest)) := by
        rw [← List.append_assoc, ← encode_append, ← List.singleton_append, ← List.append_assoc]
        simp only [chars, separator, if_true, List.append_assoc, List.cons_append, List.nil_append]
        rfl
      have hlength : members.length < (encode (separator true ++ (quote member.1 ++ ':' ::
          chars member.2)) ++ (encode (memberChars members) ++ rest)).length := by
        have hmembers := length_lt_memberChars members
        have hencode := Text.Utf8.length_le_encode (memberChars members)
        rw [List.length_append, List.length_append]
        omega
      rw [hbytes, structured, skipSpace_cons (by decide)]
      dsimp only
      rw [if_neg (by decide), if_pos rfl, fieldMembers_member hmember List.not_mem_nil]
      rw [List.map_cons] at hnodup hcomplete
      refine fieldMembers_memberChars hrest ?_ ?_ hlength (change start) rest
      · exact List.perm_append_comm.nodup_iff.mpr hnodup
      · rw [← List.reverse_cons]
        exact hcomplete

end SheetCompiler.Json
