import SheetCompiler.Text.Cut
import SheetCompiler.Value

/-!
# Field paths

A column of a worksheet fills the field that its header names segment by segment.  Types and
defaults are looked up by the *dotted path* of a field, the segments joined by dots.  A dotted path
grows by one name at a time (`extend`), and the path of a segment list is that growth from the
empty path (`ofSegments`); so the paths registered for a column are the ones met again when a
record is walked field by field.  An empty path takes the next name as it is, without a dot.

`Value.query` reads a value by a dotted path.  Lists are looked through: the rest of the path is
read in each of their items.
-/

namespace SheetCompiler

namespace FieldPath

/-- The character between the segments of a dotted path. -/
def separator : Char := '.'

/-- The path of a field below a given path. -/
def extend (path name : String) : String :=
  if path.isEmpty then name else path ++ separator.toString ++ name

/-- The dotted path of a list of segments. -/
def ofSegments (segments : List String) : String := segments.foldl extend ""

/-- The paths of a list of segments and of all its parents, the shallowest first. -/
def ancestry (path : String) : (segments : List String) → List String
  | [] => []
  | segment :: rest => extend path segment :: ancestry (extend path segment) rest

/-- The pieces of a dotted path, empty ones included. -/
def pieces (path : String) : List String := (Text.cut separator path.toList).map String.ofList

/-- The number of segments of a dotted path; the empty path has none. -/
def depth (path : String) : Nat := if path.isEmpty then 0 else (pieces path).length

/-- The names that a dotted path asks for: its pieces without the empty ones. -/
def steps (path : String) : List String := (pieces path).filter fun piece => !piece.isEmpty

@[simp] theorem ofSegments_nil : ofSegments [] = "" := rfl

@[simp] theorem ancestry_cons (path segment : String) (rest : List String) :
    ancestry path (segment :: rest) =
      extend path segment :: ancestry (extend path segment) rest := rfl

@[simp] theorem length_ancestry (path : String) (segments : List String) :
    (ancestry path segments).length = segments.length := by
  induction segments generalizing path with
  | nil => rfl
  | cons segment rest ih => simp [ih]

/-! ## Paths of plain segments -/

/-- A segment with some text and no separator in it. -/
def IsPlain (segment : String) : Prop := segment.isEmpty = false ∧ separator ∉ segment.toList

theorem toList_ne_nil {text : String} (h : text.isEmpty = false) : text.toList ≠ [] := by
  intro hnil
  rw [String.toList_eq_nil_iff] at hnil
  rw [hnil] at h
  cases h

/-- A path grows as its segments are glued. -/
theorem toList_foldl_extend {path : String} (h : path.isEmpty = false) (segments : List String) :
    (segments.foldl extend path).toList =
      Text.glue separator (path.toList :: segments.map String.toList) := by
  induction segments generalizing path with
  | nil => rfl
  | cons segment rest ih =>
    have hextend : (extend path segment).toList =
        path.toList ++ separator :: segment.toList := by
      simp [extend, h]
    have hne : (extend path segment).isEmpty = false := by
      rw [Bool.eq_false_iff, ne_eq, String.isEmpty_iff, ← String.toList_eq_nil_iff, hextend]
      simp
    rw [List.foldl_cons, ih hne, hextend, Text.glue_append_head, Text.glue_cons_head,
      List.map_cons, Text.glue]

/-- The pieces of a path of plain segments are its segments. -/
theorem cut_ofSegments {segments : List String} (hne : segments ≠ [])
    (h : ∀ segment ∈ segments, IsPlain segment) :
    Text.cut separator (ofSegments segments).toList = segments.map String.toList := by
  obtain ⟨first, rest, rfl⟩ := List.exists_cons_of_ne_nil hne
  have hfirst := (h first List.mem_cons_self).1
  have hstart : ofSegments (first :: rest) = rest.foldl extend first := rfl
  rw [hstart, toList_foldl_extend hfirst, ← List.map_cons, Text.cut_glue (by simp)]
  intro piece hpiece
  obtain ⟨segment, hsegment, rfl⟩ := List.mem_map.mp hpiece
  exact (h segment hsegment).2

theorem pieces_ofSegments {segments : List String} (hne : segments ≠ [])
    (h : ∀ segment ∈ segments, IsPlain segment) : pieces (ofSegments segments) = segments := by
  rw [pieces, cut_ofSegments hne h, List.map_map]
  exact (List.map_congr_left fun segment _ => String.ofList_toList).trans (List.map_id segments)

/-- There is no empty segment among plain ones. -/
theorem filter_plain {segments : List String} (h : ∀ segment ∈ segments, IsPlain segment) :
    (segments.filter fun segment => !segment.isEmpty) = segments := by
  refine List.filter_eq_self.mpr fun segment hsegment => ?_
  rw [(h segment hsegment).1]
  rfl

/-- Different lists of plain segments have different paths. -/
theorem ofSegments_inj {front back : List String} (hfront : ∀ segment ∈ front, IsPlain segment)
    (hback : ∀ segment ∈ back, IsPlain segment) (hback' : back ≠ [])
    (h : ofSegments front = ofSegments back) : front = back := by
  have hcut := cut_ofSegments hback' hback
  rw [← h] at hcut
  by_cases hnil : front = []
  · -- the path of no segments has one piece, and that is empty
    exfalso
    rw [hnil, ofSegments_nil] at hcut
    obtain ⟨first, rest, rfl⟩ := List.exists_cons_of_ne_nil hback'
    rw [List.map_cons] at hcut
    have hempty : [] = first.toList := (List.cons.inj hcut).1
    exact toList_ne_nil (hback first List.mem_cons_self).1 hempty.symm
  · rw [cut_ofSegments hnil hfront] at hcut
    exact (List.map_inj_right fun _ _ hsame => String.toList_inj.mp hsame).mp hcut

/-- A path of plain segments grows to another one by further segments only. -/
theorem exists_append_of_foldl_extend {front whole more : List String} (hne : front ≠ [])
    (hfront : ∀ segment ∈ front, IsPlain segment) (hwhole : ∀ segment ∈ whole, IsPlain segment)
    (hwhole' : whole ≠ []) (h : more.foldl extend (ofSegments front) = ofSegments whole) :
    ∃ rest, whole = front ++ rest := by
  have hfilled : (ofSegments front).isEmpty = false := by
    refine Bool.eq_false_iff.mpr fun hempty => hne ?_
    have hnil : ofSegments [] = ofSegments front := (String.isEmpty_iff.mp hempty).symm
    exact (ofSegments_inj (by simp) hfront hne hnil).symm
  have hcut := cut_ofSegments hwhole' hwhole
  obtain ⟨rest, hrest⟩ : ∃ rest, Text.cut separator (ofSegments whole).toList =
      front.map String.toList ++ rest := by
    rw [← h, toList_foldl_extend hfilled, ← cut_ofSegments hne hfront]
    cases more with
    | nil => exact ⟨[], (List.append_nil _).symm⟩
    | cons next more => exact ⟨_, Text.cut_append separator _ _⟩
  rw [hcut, List.map_eq_append_iff] at hrest
  obtain ⟨first, last, rfl, hfirst, -⟩ := hrest
  have hsame := (List.map_inj_right fun _ _ hsame => String.toList_inj.mp hsame).mp hfirst
  exact ⟨last, by rw [hsame]⟩

end FieldPath

namespace Value

/-- The value itself, or the items of a list. -/
def itemsOrSelf : Value → List Value
  | .list items => items
  | value => [value]

mutual

/-- What a value holds below a list of names: each name descends into a record, and lists pass the
names on to their items.  Without names left a list gives its items. -/
def descend (names : List String) : Value → List Value
  | .record fields =>
    match names with
    | [] => [.record fields]
    | name :: rest => descendField name rest fields
  | .list items =>
    match names with
    | [] => items
    | _ :: _ => descendItems names items
  | .null =>
    match names with
    | [] => [.null]
    | _ :: _ => []
  | .scalar text =>
    match names with
    | [] => [.scalar text]
    | _ :: _ => []

/-- What the first field of that name holds. -/
def descendField (name : String) (names : List String) : List (String × Value) → List Value
  | [] => []
  | (key, value) :: rest =>
    if key = name then descend names value else descendField name names rest

/-- What the items hold, one after another. -/
def descendItems (names : List String) : List Value → List Value
  | [] => []
  | item :: rest => descend names item ++ descendItems names rest

end

/-- Every value found at a dotted path; empty pieces of the path are skipped. -/
def query (value : Value) (path : String) : List Value := descend (FieldPath.steps path) value

theorem descend_nil (value : Value) : descend [] value = itemsOrSelf value := by
  cases value <;> simp [descend, itemsOrSelf]

theorem descendItems_eq_flatMap (names : List String) (items : List Value) :
    descendItems names items = items.flatMap (descend names) := by
  induction items with
  | nil => simp [descendItems]
  | cons item rest ih => simp [descendItems, ih]

theorem descendField_eq_getD (name : String) (names : List String)
    (fields : List (String × Value)) :
    descendField name names fields =
      ((Entries.get? name fields).map (descend names)).getD [] := by
  induction fields with
  | nil => simp [descendField]
  | cons field rest ih =>
    by_cases h : field.1 = name <;> simp [descendField, Entries.get?, h, ih]

end Value

end SheetCompiler
