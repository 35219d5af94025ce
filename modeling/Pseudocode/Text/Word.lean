import Pseudocode.Text.Digit
import Pseudocode.Text.Letter

/-!
# Words and names

A word is a run of letters, numerals and underscores. A name is a word that does not start with a
decimal digit.
-/

namespace Pseudocode.Text

/-- Whether a character can stand in a word. -/
def isWordChar (c : Char) : Bool :=
  c == '_' || isLetter c || isNumeral c

/-- Whether a character can start a name. -/
def isNameStart (c : Char) : Bool :=
  isWordChar c && !isDecimal c

/-- A text without a line feed at its end, if it has one. -/
def dropFinalBreak (t : Text) : Text :=
  if t.getLast? = some '\n' then t.dropLast else t

/-- Whether a text is a name. One line feed after it makes no difference. -/
def isName : Text → Bool
  | [] => false
  | c :: rest => isNameStart c && (dropFinalBreak rest).all isWordChar

end Pseudocode.Text
