import SheetCompiler.Json.Decode
import SheetCompiler.Settings

/-!
# Settings in JSON

Settings may be kept as a JSON text.  Each of them may be left out and is then as usual; other
members are passed over.
-/

namespace SheetCompiler

namespace Settings

open Json (Decoder Field)

/-- Read settings, each under its name or in its place. -/
def decoder : Decoder Settings :=
  Json.structured [
    Field.of "custom_keywords" false (Json.list Json.text) fun keywords settings =>
      { settings with customKeywords := keywords },
    Field.of "case_sensitive" false Json.flag fun on settings =>
      { settings with caseSensitive := on },
    Field.of "max_rows" false Json.natural fun rows settings => { settings with maxRows := rows },
    Field.of "max_columns" false Json.natural fun columns settings =>
      { settings with maxColumns := columns },
    Field.of "max_depth" false Json.natural fun depth settings =>
      { settings with maxDepth := depth },
    Field.of "strict" false Json.flag fun on settings => { settings with strict := on },
    Field.of "identifier_pattern" false Json.text fun pattern settings =>
      { settings with identifierPattern := pattern },
    Field.of "valid_types" false (Json.list Json.text) fun types settings =>
      { settings with validTypes := types },
    Field.of "list_marker" false Json.text fun marker settings =>
      { settings with listMarker := marker },
    Field.of "marker" false Json.text fun marker settings => { settings with marker := marker }]
    {}

/-- Read settings from a text. -/
def read (text : String) : Except Json.Flaw Settings :=
  Json.decode decoder (Text.Utf8.ofString text)

end Settings

end SheetCompiler
