import Pseudocode.Text.Blank

/-!
# Trimming and lines

White space at the ends of a text is dropped, and source text is cut into lines.
-/

namespace Pseudocode.Text

/-- A text without the white space at its start. -/
def trimStart (t : Text) : Text := t.dropWhile isBlank

/-- A text without the white space at its end. -/
def trimEnd (t : Text) : Text := (t.reverse.dropWhile isBlank).reverse

/-- A text without the white space at its ends. -/
def trim (t : Text) : Text := trimEnd (trimStart t)

/-- The lines of a text, without the breaks that end them. A carriage return and the line feed
after it are one break. A break at the very end starts no further line. -/
def lines : Text → List Text
  | [] => []
  | '\r' :: '\n' :: rest => [] :: lines rest
  | c :: rest =>
    if isLineBreak c then [] :: lines rest
    else match lines rest with
      | [] => [[c]]
      | line :: more => (c :: line) :: more

@[simp] theorem trimStart_nil : trimStart [] = [] := rfl

@[simp] theorem trimEnd_nil : trimEnd [] = [] := rfl

@[simp] theorem trim_nil : trim [] = [] := rfl

@[simp] theorem lines_nil : lines [] = [] := by
  rw [lines]

end Pseudocode.Text
