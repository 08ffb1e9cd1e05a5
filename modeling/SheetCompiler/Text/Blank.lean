/-!
# White space

Headers and cells are read up to surrounding white space, and a cell of white space alone counts
as blank.  White space is the property of that name in the Unicode standard: tabulation and line
controls, the spaces of all widths, and the line and paragraph separators, but neither the
zero-width space nor the byte order mark.
-/

namespace SheetCompiler.Text

/-- White space of any kind. -/
def isBlank (c : Char) : Bool :=
  let code := c.toNat
  (0x9 ≤ code && code ≤ 0xd) || code == 0x20 || code == 0x85 || code == 0xa0 || code == 0x1680 ||
    (0x2000 ≤ code && code ≤ 0x200a) || code == 0x2028 || code == 0x2029 || code == 0x202f ||
    code == 0x205f || code == 0x3000

/-- Drop white space from the front. -/
def dropBlank (chars : List Char) : List Char := chars.dropWhile isBlank

/-- Drop white space from both ends. -/
def trimChars (chars : List Char) : List Char :=
  (dropBlank (dropBlank chars).reverse).reverse

/-- Drop white space from both ends of a text. -/
def trim (text : String) : String := String.ofList (trimChars text.toList)

/-- The trimmed text, unless nothing is left of it. -/
def filled? (text : String) : Option String :=
  let trimmed := trim text
  if trimmed.isEmpty then none else some trimmed

/-- A text without anything but white space. -/
def isBlankText (text : String) : Bool := text.toList.all isBlank

end SheetCompiler.Text
