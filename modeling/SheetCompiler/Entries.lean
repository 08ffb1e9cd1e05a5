/-!
# Ordered entries

Named entries in the order in which the names first appeared.  The fields of a record, the type
and default of every field path and the metadata of a sheet are all kept this way, because their
order is part of what a reader of the output sees.

Writing under a name that is already there replaces the value and keeps the place
(`names_put_of_mem`); a new name goes to the end (`names_put_of_notMem`).  Reading sees the last
write (`get?_put_self`) and nothing else changes (`get?_put_of_ne`).
-/

namespace SheetCompiler

/-- Named entries, in order of first appearance. -/
abbrev Entries (α : Type) := List (String × α)

namespace Entries

variable {α : Type}

/-- The value of the first entry with this name. -/
def get? (name : String) : Entries α → Option α
  | [] => none
  | (key, value) :: rest => if key = name then some value else get? name rest

/-- Write a value under a name: in place when the name is known, else at the end. -/
def put (name : String) (value : α) : Entries α → Entries α
  | [] => [(name, value)]
  | (key, old) :: rest =>
    if key = name then (key, value) :: rest else (key, old) :: put name value rest

/-- The names, in order. -/
def names (entries : Entries α) : List String := entries.map Prod.fst

/-- Write the pairs one after another into no entries at all. -/
def ofPairs (pairs : List (String × α)) : Entries α :=
  pairs.foldl (fun entries pair => put pair.1 pair.2 entries) []

/-- Leave out every entry with one of these names. -/
def without (dropped : List String) (entries : Entries α) : Entries α :=
  entries.filter fun entry => !dropped.contains entry.1

/-! ## Reading back -/

@[simp] theorem get?_nil (name : String) : get? name ([] : Entries α) = none := rfl

@[simp] theorem names_nil : names ([] : Entries α) = [] := rfl

@[simp] theorem names_cons (entry : String × α) (rest : Entries α) :
    names (entry :: rest) = entry.1 :: names rest := rfl

@[simp] theorem get?_put_self (name : String) (value : α) (entries : Entries α) :
    get? name (put name value entries) = some value := by
  induction entries with
  | nil => simp [put, get?]
  | cons entry rest ih => by_cases h : entry.1 = name <;> simp [put, get?, h, ih]

theorem get?_put_of_ne {name other : String} (h : other ≠ name) (value : α)
    (entries : Entries α) : get? other (put name value entries) = get? other entries := by
  induction entries with
  | nil => simp [put, get?, h.symm]
  | cons entry rest ih =>
    by_cases he : entry.1 = name
    · have hne : ¬ entry.1 = other := fun hc => h (hc.symm.trans he)
      simp [put, get?, he, h.symm]
    · simp [put, get?, he, ih]

theorem get?_eq_none_iff {name : String} {entries : Entries α} :
    get? name entries = none ↔ name ∉ names entries := by
  induction entries with
  | nil => simp
  | cons entry rest ih =>
    by_cases h : entry.1 = name
    · simp [get?, h]
    · have h' : ¬ name = entry.1 := fun e => h e.symm
      simp [get?, h, ih, h']

theorem names_put_of_mem {name : String} {entries : Entries α} (h : name ∈ names entries)
    (value : α) : names (put name value entries) = names entries := by
  induction entries with
  | nil => simp at h
  | cons entry rest ih =>
    by_cases he : entry.1 = name
    · simp [put, he]
    · have hr : name ∈ names rest := by
        rcases List.mem_cons.mp h with e | e
        · exact absurd e.symm he
        · exact e
      simp [put, he, ih hr]

theorem names_put_of_notMem {name : String} {entries : Entries α} (h : name ∉ names entries)
    (value : α) : names (put name value entries) = names entries ++ [name] := by
  induction entries with
  | nil => simp [put]
  | cons entry rest ih =>
    have he : ¬ entry.1 = name := fun e => h (by simp [e])
    have hr : name ∉ names rest := fun e => h (List.mem_cons_of_mem _ e)
    simp [put, he, ih hr]

/-- A value under a new name goes to the end. -/
theorem put_of_notMem {name : String} {entries : Entries α} (h : name ∉ names entries)
    (value : α) : put name value entries = entries ++ [(name, value)] := by
  induction entries with
  | nil => rfl
  | cons entry rest ih =>
    rw [names_cons, List.mem_cons, not_or] at h
    rw [put, if_neg (Ne.symm h.1), ih h.2, List.cons_append]

/-- After a write the names are the old ones and the written one. -/
theorem mem_names_put {name other : String} {value : α} {entries : Entries α} :
    other ∈ names (put name value entries) ↔ other = name ∨ other ∈ names entries := by
  by_cases hm : name ∈ names entries
  · rw [names_put_of_mem hm]
    exact ⟨Or.inr, fun h => h.elim (fun e => e ▸ hm) id⟩
  · rw [names_put_of_notMem hm, List.mem_append, List.mem_singleton, or_comm]

/-- Writing never makes a name appear twice. -/
theorem nodup_names_put {entries : Entries α} (h : (names entries).Nodup) (name : String)
    (value : α) : (names (put name value entries)).Nodup := by
  by_cases hm : name ∈ names entries
  · rwa [names_put_of_mem hm]
  · rw [names_put_of_notMem hm]
    exact List.nodup_append.mpr ⟨h, by simp, by
      intro a ha b hb
      simp only [List.mem_singleton] at hb
      subst hb
      exact fun e => hm (e ▸ ha)⟩

/-! ## Entries as a list -/

/-- Pairs with different names are written down as they are, behind what is there. -/
theorem foldl_put_of_nodup {pairs entries : Entries α} (h : (names (entries ++ pairs)).Nodup) :
    pairs.foldl (fun entries pair => put pair.1 pair.2 entries) entries = entries ++ pairs := by
  induction pairs generalizing entries with
  | nil => rw [List.foldl_nil, List.append_nil]
  | cons pair rest ih =>
    have hsplit : entries ++ pair :: rest = entries ++ [pair] ++ rest := by
      rw [List.append_assoc, List.singleton_append]
    have hnew : pair.1 ∉ names entries := by
      rw [names, List.map_append, List.nodup_append] at h
      intro hmem
      exact h.2.2 pair.1 hmem pair.1 List.mem_cons_self rfl
    rw [hsplit] at h ⊢
    rw [List.foldl_cons, put_of_notMem hnew, ih h]

theorem ofPairs_of_nodup {pairs : Entries α} (h : (names pairs).Nodup) : ofPairs pairs = pairs :=
  foldl_put_of_nodup h

theorem mem_names_of_mem {entry : String × α} {entries : Entries α} (h : entry ∈ entries) :
    entry.1 ∈ names entries := List.mem_map_of_mem h

theorem mem_of_get? {name : String} {value : α} {entries : Entries α}
    (h : get? name entries = some value) : (name, value) ∈ entries := by
  induction entries with
  | nil => simp at h
  | cons entry rest ih =>
    by_cases he : entry.1 = name
    · rw [get?, if_pos he, Option.some.injEq] at h
      rw [← he, ← h]
      exact List.mem_cons_self
    · rw [get?, if_neg he] at h
      exact List.mem_cons_of_mem _ (ih h)

/-- What is under a name that is there can be read. -/
theorem exists_get? {name : String} {entries : Entries α} (h : name ∈ names entries) :
    ∃ value, get? name entries = some value := by
  cases hget : get? name entries with
  | none => exact absurd h (get?_eq_none_iff.mp hget)
  | some value => exact ⟨value, rfl⟩

/-- Reading finds the first entry of a name. -/
theorem get?_append_cons {name : String} {front : Entries α} (h : name ∉ names front) (value : α)
    (rest : Entries α) : get? name (front ++ (name, value) :: rest) = some value := by
  induction front with
  | nil => rw [List.nil_append, get?, if_pos rfl]
  | cons entry front ih =>
    rw [names_cons, List.mem_cons, not_or] at h
    rw [List.cons_append, get?, if_neg (Ne.symm h.1), ih h.2]

/-- Writing replaces the first entry of a name. -/
theorem put_append_cons {name : String} {front : Entries α} (h : name ∉ names front)
    (value old : α) (rest : Entries α) :
    put name value (front ++ (name, old) :: rest) = front ++ (name, value) :: rest := by
  induction front with
  | nil => rw [List.nil_append, put, if_pos rfl, List.nil_append]
  | cons entry front ih =>
    rw [names_cons, List.mem_cons, not_or] at h
    rw [List.cons_append, put, if_neg (Ne.symm h.1), ih h.2, List.cons_append]

/-- Where no name appears twice, every entry is the one that reading its name finds. -/
theorem get?_of_mem {entry : String × α} {entries : Entries α} (hnodup : (names entries).Nodup)
    (h : entry ∈ entries) : get? entry.1 entries = some entry.2 := by
  induction entries with
  | nil => simp at h
  | cons first rest ih =>
    rw [names_cons, List.nodup_cons] at hnodup
    rcases List.mem_cons.mp h with rfl | hrest
    · rw [get?, if_pos rfl]
    · have hne : first.1 ≠ entry.1 := fun he => hnodup.1 (he ▸ mem_names_of_mem hrest)
      rw [get?, if_neg hne, ih hnodup.2 hrest]

/-- Reading after all values were changed in place. -/
theorem get?_map {β : Type} (name : String) (f : String × α → β) (entries : Entries α) :
    get? name (entries.map fun entry => (entry.1, f entry)) =
      (get? name entries).map fun value => f (name, value) := by
  induction entries with
  | nil => rfl
  | cons entry rest ih =>
    by_cases he : entry.1 = name
    · rw [List.map_cons, get?, if_pos he, get?, if_pos he, Option.map_some, ← he]
    · rw [List.map_cons, get?, if_neg he, get?, if_neg he, ih]

/-- An entry after a write is the written one, or an old one of another name. -/
theorem mem_put {entry : String × α} {name : String} {value : α} {entries : Entries α}
    (hnodup : (names entries).Nodup) (h : entry ∈ put name value entries) :
    entry = (name, value) ∨ entry ∈ entries ∧ entry.1 ≠ name := by
  by_cases hname : entry.1 = name
  · have hget := get?_of_mem (nodup_names_put hnodup name value) h
    rw [hname, get?_put_self, Option.some.injEq] at hget
    exact Or.inl (Prod.ext hname hget.symm)
  · have hget := get?_of_mem (nodup_names_put hnodup name value) h
    rw [get?_put_of_ne hname] at hget
    exact Or.inr ⟨mem_of_get? hget, hname⟩

end Entries

end SheetCompiler
