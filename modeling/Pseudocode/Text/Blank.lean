import Pseudocode.Text.Ranges

/-!
# Blanks and line breaks

The white space that may surround a line, a word or a part of a list, and the breaks that end a
line of source text.
-/

namespace Pseudocode.Text

/-- White space: tab to carriage return, the four separators from `0x1C`, the space, and the
spaces and separators of Unicode. -/
def blankRanges : Ranges :=
  [(0x9, 0xD), (0x1C, 0x20), (0x85, 0x85), (0xA0, 0xA0), (0x1680, 0x1680), (0x2000, 0x200A),
   (0x2028, 0x2029), (0x202F, 0x202F), (0x205F, 0x205F), (0x3000, 0x3000)]

/-- Whether a character is white space. -/
def isBlank (c : Char) : Bool :=
  blankRanges.has c

/-- White space as the readers of numerals know it: the six blanks of ASCII from tab to space,
and every blank beyond ASCII. The separators `0x1C` to `0x1F` are not among them. -/
def isNumeralBlank (c : Char) : Bool :=
  isBlank c && !(0x1C ≤ c.toNat && c.toNat ≤ 0x1F)

/-- The characters that end a line of source text. A carriage return and a line feed that follow
each other end one line together. -/
def isLineBreak (c : Char) : Bool :=
  [0x0A, 0x0B, 0x0C, 0x0D, 0x1C, 0x1D, 0x1E, 0x85, 0x2028, 0x2029].contains c.toNat

end Pseudocode.Text
