import SheetCompiler.FieldPath
import SheetCompiler.Settings

/-!
# Columns of a header block

Each column of the header block stacks up values under keywords: the names of its field path under
`var`, the type tags of that path under `type`, the text that fills blank cells under `default`, and
whatever custom keywords collect.  Which keywords count and which columns can be used is decided by
`Rules`, the settings in the form in which headers are checked against them.

The names of strict mode are matched against a pattern, in a syntax with many corners that has
nothing to do with worksheets.  So the matcher is a part of the rules, next to the settings, and may
be any function; only `Rules.ofSettings` takes the one that `Pattern.read?` makes of the settings'
pattern.
-/

namespace SheetCompiler

namespace Keyword

/-- The keyword of field names, one header row for each level of nesting. -/
def field : String := "var"

/-- The keyword of type tags, aligned with the field names. -/
def type : String := "type"

/-- The keyword of the text for blank cells. -/
def fallback : String := "default"

/-- The keywords that need not be declared. -/
def builtIn : List String := [field, type, fallback]

end Keyword

/-- What the header says about one column. -/
structure Column where
  /-- The number of the column; the first is the marker column. -/
  index : Nat
  /-- The values under each keyword, from top to bottom. -/
  values : Entries (List String) := []
  /-- The last value under the keyword of defaults. -/
  fallback : Option String := none
  deriving DecidableEq

namespace Column

/-- The values under a keyword. -/
def get (keyword : String) (column : Column) : List String :=
  (Entries.get? keyword column.values).getD []

/-- Add a value under a keyword. -/
def push (keyword value : String) (column : Column) : Column :=
  { column with
    values := Entries.put keyword (column.get keyword ++ [value]) column.values
    fallback := if keyword = Keyword.fallback then some value else column.fallback }

/-- The names that lead to the column's field. -/
def segments (column : Column) : List String := column.get Keyword.field

/-- The type tags along the field path. -/
def types (column : Column) : List String := column.get Keyword.type

/-- The dotted path of the column's field. -/
def path (column : Column) : String := FieldPath.ofSegments column.segments

/-- Whether the header says nothing about the column. -/
def isEmpty (column : Column) : Bool := column.values.all fun entry => entry.2.isEmpty

theorem get_push_self (keyword value : String) (column : Column) :
    (column.push keyword value).get keyword = column.get keyword ++ [value] := by
  simp [push, get]

theorem get_push_of_ne {keyword other : String} (h : other ≠ keyword) (value : String)
    (column : Column) : (column.push keyword value).get other = column.get other := by
  simp [push, get, Entries.get?_put_of_ne h]

end Column

/-- Settings in the form in which headers are checked against them. -/
structure Rules where
  settings : Settings
  /-- Whether a name matches the pattern of identifiers. -/
  isIdentifier : String → Bool

namespace Rules

/-- All keywords that are collected per column, folded. -/
def keywords (rules : Rules) : List String :=
  Keyword.builtIn ++ rules.settings.customKeywords.map fun keyword =>
    rules.settings.fold (Text.trim keyword)

/-- The type tags of strict mode, folded. -/
def validTypes (rules : Rules) : List String :=
  rules.settings.validTypes.map rules.settings.fold

/-- The rules of settings that pass their check. -/
def ofSettings (settings : Settings) : Except SettingsFault Rules := do
  settings.check
  match settings.identifier? with
  | none => .error (.badPattern settings.identifierPattern)
  | some identifier => return ⟨settings, identifier.matchesIn⟩

theorem mem_keywords_of_mem_builtIn {key : String} (h : key ∈ Keyword.builtIn) (rules : Rules) :
    key ∈ rules.keywords :=
  List.mem_append_left _ h

/-- The folded keyword, if it is one that columns collect. -/
def recognize? (rules : Rules) (keyword : String) : Option String :=
  let folded := rules.settings.fold keyword
  if rules.keywords.contains folded then some folded else none

/-- Whether strict mode accepts the names and type tags of a column. -/
def accepts (rules : Rules) (column : Column) : Bool :=
  column.segments.all rules.isIdentifier &&
    column.types.all fun tag => rules.validTypes.contains (rules.settings.fold tag)

/-- Whether a column can be used: it names a field, tags every name with a type, and passes the
checks of strict mode. -/
def usable (rules : Rules) (column : Column) : Bool :=
  !column.segments.isEmpty && !column.types.isEmpty &&
    column.segments.length == column.types.length &&
    (!rules.settings.strict || rules.accepts column)

end Rules

end SheetCompiler
