import SheetCompiler.Number.Shortest
import SheetCompiler.Value

/-!
# JSON trees

A JSON document as a tree.  Members of an object keep their order.  Whole numbers that fit into 64
bits are kept exactly; every other number is a binary floating-point number.

`Value.toJson` is the JSON form of a compiled value: text stays text and nothing becomes `null`.
-/

namespace SheetCompiler

namespace Json

/-- A number of a JSON document. -/
inductive Number where
  /-- A whole number that is not negative. -/
  | natural (n : Nat)
  /-- The negative of a whole number. -/
  | negative (n : Nat)
  | float (x : Binary64)
  deriving DecidableEq

end Json

/-- A JSON document. -/
inductive Json where
  | null
  | bool (value : Bool)
  | number (value : Json.Number)
  | string (text : String)
  | array (items : List Json)
  | object (members : List (String × Json))
  deriving Inhabited

namespace Value

mutual

/-- The JSON form of a value. -/
def toJson : Value → Json
  | .null => .null
  | .scalar text => .string text
  | .record fields => .object (membersToJson fields)
  | .list items => .array (itemsToJson items)

/-- The JSON forms of fields, in order. -/
def membersToJson : List (String × Value) → List (String × Json)
  | [] => []
  | (name, value) :: rest => (name, toJson value) :: membersToJson rest

/-- The JSON forms of items, in order. -/
def itemsToJson : List Value → List Json
  | [] => []
  | item :: rest => toJson item :: itemsToJson rest

end

end Value

end SheetCompiler
