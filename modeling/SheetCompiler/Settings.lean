import SheetCompiler.Text.Blank
import SheetCompiler.Text.Lowercase
import SheetCompiler.Pattern.Reading

/-!
# Settings of a compilation

`Settings` says how a worksheet is to be read: how header rows are marked, which keywords count,
how far a sheet is looked at, and what strict mode checks.

Settings are checked in two steps.  `Settings.checkValues` looks at limits and markers, which are
texts and numbers of the settings themselves.  `Settings.check` goes on to the pattern of
identifiers, whose syntax is that of `Pattern.read?`.

Unless case matters, keywords, type tags and list markers are compared in lower case (`fold`), and
identifiers are matched without regard to case.
-/

namespace SheetCompiler

/-- How worksheets are read. -/
structure Settings where
  /-- Header keywords that are collected per column, besides the built-in ones. -/
  customKeywords : List String := []
  /-- Whether letter case matters in keywords, type tags and identifiers. -/
  caseSensitive : Bool := false
  /-- Rows beyond this one are not looked at. -/
  maxRows : Nat := 65536
  /-- Columns beyond this one are not looked at. -/
  maxColumns : Nat := 1024
  /-- Items are not merged below a path that is deeper than this. -/
  maxDepth : Nat := 16
  /-- Whether columns with bad identifiers or unknown type tags are left out. -/
  strict : Bool := false
  /-- What every name of a field path must match in strict mode. -/
  identifierPattern : String := "^[A-Za-z_][A-Za-z0-9_]*$"
  /-- The type tags of strict mode. -/
  validTypes : List String := ["string", "int", "float", "bool", "list"]
  /-- The part of a type tag that makes a field a list. -/
  listMarker : String := "list"
  /-- How the first cell of a header row begins. -/
  marker : String := "#"
  deriving DecidableEq

/-- Why settings cannot be used. -/
inductive SettingsFault where
  | noRoom
  | emptyMarker
  | emptyListMarker
  | badPattern (pattern : String)
  deriving DecidableEq

namespace SettingsFault

/-- What is wrong. -/
def message : SettingsFault → String
  | noRoom => "max_rows and max_columns must be greater than zero"
  | emptyMarker => "header marker must not be empty"
  | emptyListMarker => "list marker must not be empty"
  | badPattern pattern => s!"invalid identifier pattern '{pattern}'"

end SettingsFault

namespace Settings

/-- Whether a text contains another one in one piece. -/
def containsText (part : List Char) : List Char → Bool
  | [] => part.isEmpty
  | text@(_ :: rest) => part.isPrefixOf text || containsText part rest

/-- The form in which texts are compared. -/
def fold (settings : Settings) (text : String) : String :=
  if settings.caseSensitive then text else Text.lowercase text

/-- Whether a type tag makes a field a list: it contains the list marker. -/
def isListTag (settings : Settings) (tag : String) : Bool :=
  containsText (settings.fold settings.listMarker).toList (settings.fold tag).toList

/-- The pattern of identifiers. -/
def identifier? (settings : Settings) : Option Pattern :=
  Pattern.read? (!settings.caseSensitive) settings.identifierPattern

/-- The first fault among the limits and markers. -/
def checkValues (settings : Settings) : Except SettingsFault Unit :=
  if settings.maxRows = 0 ∨ settings.maxColumns = 0 then .error .noRoom
  else if settings.marker.isEmpty then .error .emptyMarker
  else if settings.listMarker.isEmpty then .error .emptyListMarker
  else .ok ()

/-- The first fault of the settings. -/
def check (settings : Settings) : Except SettingsFault Unit := do
  settings.checkValues
  if settings.identifier?.isNone then .error (.badPattern settings.identifierPattern) else .ok ()

/-- Limits and markers pass exactly when none of them is zero or empty. -/
theorem checkValues_eq_ok_iff (settings : Settings) :
    settings.checkValues = .ok () ↔
      settings.maxRows ≠ 0 ∧ settings.maxColumns ≠ 0 ∧ settings.marker.isEmpty = false ∧
        settings.listMarker.isEmpty = false := by
  unfold checkValues
  split
  · simp; omega
  · split
    · simp_all
    · split
      · simp_all
      · simp_all

/-- Settings pass exactly when their limits and markers do and their pattern is one. -/
theorem check_eq_ok_iff (settings : Settings) :
    settings.check = .ok () ↔
      settings.checkValues = .ok () ∧ settings.identifier?.isSome = true := by
  rw [check]
  cases settings.checkValues with
  | error fault =>
    constructor
    · intro h
      cases h
    · intro h
      cases h.1
  | ok _ =>
    show (if _ then _ else _) = Except.ok () ↔ _
    cases settings.identifier? <;> simp

end Settings

end SheetCompiler
