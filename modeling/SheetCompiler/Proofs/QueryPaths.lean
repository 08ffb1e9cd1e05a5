import SheetCompiler.CommandLine.Run
import SheetCompiler.Proofs.PathAddresses

/-!
# Queries along longer paths

A path can be asked for in two parts: what is found at the first part is asked for the second one
(`Value.query_composes`).  Lists are looked through on the way and opened at the end, so it might
matter where a path is parted.  It does not as long as the second part asks for something.  What the
first part finds is then looked through once more, and a list that it leaves closed is opened there.

On names this is a law of `Value.descend` (`Value.descend_append`), and a dotted path gives the names
of both its parts (`FieldPath.steps_append`), whatever empty pieces there are between its dots.
-/

namespace SheetCompiler

namespace FieldPath

/-- A path has the pieces of its parts. -/
theorem pieces_append (front back : String) :
    pieces (front ++ "." ++ back) = pieces front ++ pieces back := by
  have hcut : (front ++ "." ++ back).toList = front.toList ++ separator :: back.toList := by
    rw [String.toList_append, String.toList_append, List.append_assoc]
    rfl
  rw [pieces, hcut, Text.cut_append, List.map_append]
  rfl

/-- A path asks for the names of its parts. -/
theorem steps_append (front back : String) :
    steps (front ++ "." ++ back) = steps front ++ steps back := by
  rw [steps, pieces_append, List.filter_append]
  rfl

theorem steps_ne_nil {path : String} (h : ∃ piece ∈ pieces path, piece ≠ "") :
    steps path ≠ [] := by
  obtain ⟨piece, hpiece, hne⟩ := h
  refine List.ne_nil_of_mem (List.mem_filter.mpr ⟨hpiece, ?_⟩)
  rwa [Bool.not_eq_true', Bool.eq_false_iff, ne_eq, String.isEmpty_iff]

end FieldPath

namespace Value

/-- Where there are names left to follow, lists pass them on to their items. -/
theorem descend_list {names : List String} (h : names ≠ []) (items : List Value) :
    descend names (.list items) = items.flatMap (descend names) := by
  obtain ⟨name, rest, rfl⟩ := List.exists_cons_of_ne_nil h
  rw [descend, descendItems_eq_flatMap]

/-- Names can be followed in two parts if there is something in the second one. -/
theorem descend_append {back : List String} (h : back ≠ []) (front : List String) (value : Value) :
    descend (front ++ back) value = (descend front value).flatMap (descend back) := by
  induction front generalizing value with
  | nil =>
    rw [List.nil_append, descend_nil]
    cases value with
    | list items => exact descend_list h items
    | null => exact (List.append_nil _).symm
    | scalar text => exact (List.append_nil _).symm
    | record fields => exact (List.append_nil _).symm
  | cons name rest ih =>
    rw [List.cons_append, descend_cons, descend_cons, List.flatMap_assoc]
    exact List.flatMap_congr fun found _ => ih found

/-- Queries compose.  What a path finds is what its second part finds in all that its first part
finds, in order, if the second part asks for something.  Such a path finds in a list what it finds
in its items, so the records of a sheet can be queried at once or one by one. -/
theorem query_composes {path : String} (h : ∃ piece ∈ FieldPath.pieces path, piece ≠ "") :
    (∀ (front : String) (value : Value), query value (front ++ "." ++ path) =
      (query value front).flatMap fun found => query found path) ∧
    (∀ items : List Value,
      query (.list items) path = items.flatMap fun item => query item path) ∧
    ∀ sheet : CompiledSheet, CommandLine.matchesIn sheet path =
      sheet.records.flatMap fun record => query (.record record) path := by
  have hsteps := FieldPath.steps_ne_nil h
  refine ⟨fun front value => ?_, fun items => descend_list hsteps items, fun sheet => ?_⟩
  · rw [query, FieldPath.steps_append, descend_append hsteps]
    rfl
  · rw [CommandLine.matchesIn, query, descend_list hsteps, List.flatMap_map]
    rfl

/-- A list of lists under one name and a single record under another one. -/
def shelves : Value :=
  .record [("Rows", .list [
      .list [.record [("Box", .list [.scalar "a", .scalar "b"])], .record [("Box", .scalar "c")]],
      .record [("Box", .list [.list [.scalar "d"]]), ("Lid", .scalar "e")]]),
    ("Box", .scalar "f")]

/-- The boxes on all shelves, asked for in two parts with empty pieces in both. -/
theorem shelves_query : (∃ piece ∈ FieldPath.pieces ".Box.", piece ≠ "") ∧
    query shelves ("Rows." ++ "." ++ ".Box.") =
      ((query shelves "Rows.").flatMap fun found => query found ".Box.") ∧
    (query shelves "Rows.").length = 2 ∧
    query shelves ("Rows." ++ "." ++ ".Box.") =
      [.scalar "a", .scalar "b", .scalar "c", .list [.scalar "d"]] := by
  have h : ∃ piece ∈ FieldPath.pieces ".Box.", piece ≠ "" := ⟨"Box", by decide, by decide⟩
  refine ⟨h, (query_composes h).1 "Rows." shelves, by decide +kernel, by decide +kernel⟩

end Value

end SheetCompiler
