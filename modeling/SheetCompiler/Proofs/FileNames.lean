import Mathlib.Data.List.TakeWhile
import SheetCompiler.Files.FilePath

/-!
# Names at the ends of paths

A path that was joined from a directory and a file name has the parts of the directory and that name
at its end, however the directory is written (`FilePath.parts_join`, `FilePath.name?_join`).  A name
is its stem, and then nothing, or a dot and an extension without dots (`FilePath.eq_stem_append`).
There are no separators in it.
-/

namespace SheetCompiler

namespace FilePath

/-- A text that is one part of a path, and neither the directory itself nor the way up. -/
structure IsFileName (text : String) : Prop where
  separator : separator ∉ text.toList
  idle : isIdle text.toList = false
  up : text.toList ≠ ['.', '.']

instance (text : String) : Decidable (IsFileName text) :=
  decidable_of_iff (FilePath.separator ∉ text.toList ∧ isIdle text.toList = false ∧
    text.toList ≠ ['.', '.']) ⟨fun ⟨hseparator, hidle, hup⟩ => ⟨hseparator, hidle, hup⟩,
      fun h => ⟨h.separator, h.idle, h.up⟩⟩

namespace IsFileName

variable {name : String}

theorem ne_nil (h : IsFileName name) : name.toList ≠ [] := by
  intro hnil
  have hidle := h.idle
  rw [hnil] at hidle
  cases hidle

theorem ne_dot (h : IsFileName name) : name.toList ≠ ['.'] := by
  intro hdot
  have hidle := h.idle
  rw [hdot] at hidle
  cases hidle

theorem isAbsolute (h : IsFileName name) : FilePath.isAbsolute ⟨name⟩ = false := by
  rw [FilePath.isAbsolute, beq_eq_false_iff_ne]
  exact fun hfirst => h.separator (List.mem_of_head? hfirst)

end IsFileName

theorem name?_congr {path other : FilePath} (h : path.same other = true) :
    path.name? = other.name? := by
  rw [same, beq_iff_eq] at h
  rw [name?, name?, h]

/-! ## Joined paths -/

/-- The parts that the pieces between separators stand for. -/
def bodyParts (body : List Char) : List Part :=
  ((Text.cut FilePath.separator body).filter fun piece => !isIdle piece).map partOf

theorem parts_eq (path : FilePath) : path.parts =
    (opening path.text.toList).1.toList ++ bodyParts (opening path.text.toList).2 := rfl

@[simp] theorem bodyParts_nil : bodyParts [] = [] := rfl

/-- There are no parts if all pieces are idle. -/
theorem bodyParts_eq_nil_iff {body : List Char} : bodyParts body = [] ↔
    ∀ piece ∈ Text.cut FilePath.separator body, isIdle piece = true := by
  rw [bodyParts, List.map_eq_nil_iff, List.filter_eq_nil_iff]
  refine forall₂_congr fun piece _ => ?_
  rw [Bool.not_eq_true, Bool.not_eq_false']

theorem bodyParts_append (front back : List Char) :
    bodyParts (front ++ FilePath.separator :: back) = bodyParts front ++ bodyParts back := by
  simp only [bodyParts, Text.cut_append, List.filter_append, List.map_append]

theorem bodyParts_name {name : String} (h : IsFileName name) :
    bodyParts name.toList = [.name name] := by
  have hpart : partOf name.toList = .name name := by
    rw [partOf, if_neg h.up, String.ofList_toList]
  rw [bodyParts, Text.cut_of_notMem h.separator]
  simp [h.idle, hpart]

/-- Characters that begin neither at the root nor with a directory spelled out have no opening. -/
theorem opening_eq_none {chars : List Char} (hroot : ∀ rest, chars ≠ '/' :: rest)
    (hdot : chars ≠ ['.']) (hhere : ∀ rest, chars ≠ '.' :: '/' :: rest) :
    opening chars = (none, chars) := by
  unfold opening
  split
  · exact absurd rfl (hroot _)
  · exact absurd rfl hdot
  · exact absurd rfl (hhere _)
  · rfl

/-- What follows a separator behind some characters belongs to the body. -/
theorem opening_append {front : List Char} (h : front ≠ []) (back : List Char) :
    opening (front ++ FilePath.separator :: back) =
      ((opening front).1, (opening front).2 ++ FilePath.separator :: back) := by
  fun_cases opening front with
  | case1 rest => rfl
  | case2 => rfl
  | case3 rest => rfl
  | case4 _ hroot hdot hhere =>
    refine opening_eq_none (fun rest hsame => ?_) (fun hsame => ?_) fun rest hsame => ?_
    · cases front with
      | nil => exact h rfl
      | cons c more => exact hroot more (by rw [(List.cons.inj hsame).1])
    · have hmem : FilePath.separator ∈ ['.'] := by
        rw [← hsame]
        exact List.mem_append_right _ List.mem_cons_self
      exact absurd hmem (by decide)
    · match front with
      | [] => exact h rfl
      | [c] => exact hdot (by rw [(List.cons.inj hsame).1])
      | c :: d :: more =>
        obtain ⟨hc, hd⟩ := List.cons.inj hsame
        exact hhere more (by rw [hc, (List.cons.inj hd).1])

theorem parts_append {path : FilePath} {front back : List Char} (hne : front ≠ [])
    (h : path.text.toList = front ++ FilePath.separator :: back) :
    path.parts = parts ⟨String.ofList front⟩ ++ bodyParts back := by
  rw [parts_eq, parts_eq, h, opening_append hne, bodyParts_append, String.toList_ofList,
    List.append_assoc]

/-- A text without a separator has no opening, unless it is a dot. -/
theorem opening_of_notMem {chars : List Char} (h : FilePath.separator ∉ chars)
    (hdot : chars ≠ ['.']) : opening chars = (none, chars) := by
  refine opening_eq_none (fun rest hsame => h ?_) hdot fun rest hsame => h ?_
  · rw [hsame]
    exact List.mem_cons_self
  · rw [hsame]
    exact List.mem_cons_of_mem _ List.mem_cons_self

theorem parts_name {name : String} (h : IsFileName name) : parts ⟨name⟩ = [.name name] := by
  rw [parts_eq, opening_of_notMem h.separator h.ne_dot]
  exact bodyParts_name h

/-- The parts of a file in a directory are those of the directory, and its name. -/
theorem parts_join (directory : FilePath) {name : String} (h : IsFileName name) :
    (directory.join ⟨name⟩).parts = directory.parts ++ [.name name] := by
  obtain ⟨text⟩ := directory
  rw [join, h.isAbsolute]
  by_cases hempty : text = ""
  · rw [hempty]
    exact parts_name h
  · rw [if_neg (by simpa using hempty)]
    split
    · rename_i hlast
      obtain ⟨front, hfront⟩ := List.getLast?_eq_some_iff.mp hlast
      have htext : (text ++ name).toList = front ++ FilePath.separator :: name.toList := by
        rw [String.toList_append, hfront, List.append_assoc, List.singleton_append]
      cases front with
      | nil =>
        -- the directory is the root
        rw [parts_eq, parts_eq, htext, hfront]
        show [.root] ++ bodyParts name.toList = ([.root] ++ []) ++ [.name name]
        rw [bodyParts_name h, List.append_nil]
      | cons c front =>
        rw [parts_append (List.cons_ne_nil c front) htext,
          parts_append (List.cons_ne_nil c front) hfront, bodyParts_name h, bodyParts_nil,
          List.append_nil]
    · have htext : (text ++ FilePath.separator.toString ++ name).toList =
          text.toList ++ FilePath.separator :: name.toList := by
        simp
      rw [parts_append (by simpa using hempty) htext, bodyParts_name h, String.ofList_toList]

/-- A file in a directory has its name at the end. -/
theorem name?_join (directory : FilePath) {name : String} (h : IsFileName name) :
    (directory.join ⟨name⟩).name? = some name := by
  rw [name?, parts_join directory h, List.getLast?_concat]

/-! ## Stems and extensions -/

theorem eq_stem_append (name : List Char) : ∃ ending, name = (cutName name).1 ++ ending ∧
    (ending = [] ∨ ∃ extension, ending = '.' :: extension ∧ '.' ∉ extension) := by
  have hwhole := List.takeWhile_append_dropWhile (p := fun c => c != '.') (l := name.reverse)
  have hfirst := List.head?_dropWhile_not (fun c => c != '.') name.reverse
  simp only [cutName]
  split
  · exact ⟨[], (List.append_nil _).symm, Or.inl rfl⟩
  · exact ⟨[], (List.append_nil _).symm, Or.inl rfl⟩
  · rename_i dot stem _ hdrop
    rw [hdrop, List.head?_cons] at hfirst
    obtain rfl : dot = '.' := by simpa using hfirst
    refine ⟨'.' :: (name.reverse.takeWhile fun c => c != '.').reverse, ?_, Or.inr ⟨_, rfl, ?_⟩⟩
    · rw [hdrop] at hwhole
      calc name = (name.reverse.takeWhile (fun c => c != '.') ++ '.' :: stem).reverse := by
            rw [hwhole, List.reverse_reverse]
        _ = stem.reverse ++ '.' :: (name.reverse.takeWhile fun c => c != '.').reverse := by
            rw [List.reverse_append, List.reverse_cons, List.append_assoc, List.singleton_append]
    · intro hmem
      have hne := List.mem_takeWhile_imp (List.mem_reverse.mp hmem)
      simp at hne

/-! ## Names have no separators -/

theorem name_notMem_opening (chars : List Char) (name : String) :
    .name name ∉ (opening chars).1.toList := by
  unfold opening
  split <;> simp

theorem separator_notMem_name {path : FilePath} {name : String} (h : path.name? = some name) :
    FilePath.separator ∉ name.toList := by
  have hlast : path.parts.getLast? = some (.name name) := by
    rw [name?] at h
    split at h
    · rename_i hlast
      rw [hlast, Option.some.inj h]
    · cases h
  have hmem := List.mem_of_getLast? hlast
  rw [parts_eq, List.mem_append, or_iff_right (name_notMem_opening _ _)] at hmem
  obtain ⟨piece, hpiece, hpart⟩ := List.mem_map.mp hmem
  rw [partOf] at hpart
  split at hpart
  · cases hpart
  · rw [← Part.name.inj hpart, String.toList_ofList]
    exact Text.notMem_of_mem_cut (List.mem_filter.mp hpiece).1

theorem separator_notMem_stem {path : FilePath} {stem : String} (h : path.stem? = some stem) :
    FilePath.separator ∉ stem.toList := by
  obtain ⟨name, hname, rfl⟩ := Option.map_eq_some_iff.mp h
  obtain ⟨ending, hsplit, -⟩ := eq_stem_append name.toList
  intro hmem
  rw [String.toList_ofList] at hmem
  refine separator_notMem_name hname ?_
  rw [hsplit]
  exact List.mem_append_left _ hmem

end FilePath

end SheetCompiler
