import Pseudocode.Text.Case
import Pseudocode.Text.Decomposition
import Pseudocode.Text.Mark

/-!
# Accents

`dropAccents` takes a text apart into letters and nonspacing marks, brings what may change places
into canonical order, and leaves the marks out. Type names are compared in this form, in small
letters.
-/

namespace Pseudocode.Text

/-- The letters of a character. A mark that may change places is left out at once; a mark that
may not is kept for now, because nothing moves across it. -/
def expand (c : Char) : Text :=
  if isMark c then
    if isMovingMark c then [] else [c]
  else plainLetters c

/-- Puts a character behind the text so far, given in reverse: it moves to the front of characters
of a higher combining class. -/
def settle : Text → Char → Text
  | [], c => [c]
  | d :: before, c =>
    if spacingClass c ≠ 0 ∧ spacingClass c < spacingClass d then d :: settle before c
    else c :: d :: before

/-- A text without its accents. -/
def dropAccents (t : Text) : Text :=
  (((t.flatMap expand).foldl settle []).reverse).filter (!isMark ·)

/-- The form in which words of the language are compared: no accents, small letters. -/
def normalize (t : Text) : Text := lower (dropAccents t)

end Pseudocode.Text
