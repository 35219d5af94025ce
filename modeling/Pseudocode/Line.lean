import Pseudocode.Pattern
import Pseudocode.Text.Trim
import Pseudocode.Token.Lexer

/-!
# Source lines

A program is read line by line. Comments and blank lines are left out, a semicolon at the end of a
line is dropped, and a semicolon before the word `Entonces` gives way to a blank. What is left keeps
the number of the line it came from.
-/

namespace Pseudocode

/-- A line that counts: its number in the source, from one, and its text. -/
structure Line where
  number : Nat
  text : Text
deriving Repr, DecidableEq

namespace Line

/-- The text before a comment. A comment starts with two slashes outside of strings; `quote` is
the quote of the string that is open. -/
def cutComment : Option Char → Text → Text
  | _, [] => []
  | some q, c :: rest => c :: cutComment (if c = q then none else some q) rest
  | none, c :: rest =>
    if isQuote c then c :: cutComment (some c) rest
    else if c == '/' && rest.head? == some '/' then []
    else c :: cutComment none rest

/-- A text without a semicolon at its very end. -/
def dropSemicolon (t : Text) : Text :=
  if t.getLast? = some ';' then t.dropLast else t

/-- The word before which a semicolon is only a blank. -/
def thenWord : Text := "entonces".toList

/-- What is left behind a keyword is not longer than the text. -/
theorem keyword?_rest_le {word t a b : Text} (h : Pattern.keyword? word t = some (a, b)) :
    b.length ≤ t.length := by
  induction word generalizing t a b with
  | nil =>
    simp only [Pattern.keyword?, Option.some.injEq, Prod.mk.injEq] at h
    exact h.2 ▸ Nat.le_refl _
  | cons k word ih =>
    cases t with
    | nil => simp [Pattern.keyword?] at h
    | cons c t =>
      simp only [Pattern.keyword?] at h
      split at h
      · obtain ⟨⟨a', b'⟩, hk, heq⟩ := Option.map_eq_some_iff.1 h
        obtain ⟨-, rfl⟩ := Prod.mk.inj heq
        exact Nat.le_succ_of_le (ih hk)
      · exact absurd h (by simp)

/-- Puts a blank in the place of each semicolon, and the blanks behind it, that stand before the
word `Entonces`. -/
def blankSemicolons (t : Text) : Text :=
  match t with
  | [] => []
  | c :: rest =>
    if c = ';' then
      match h : Pattern.keyword? thenWord (rest.dropWhile Text.isBlank) with
      | some (word, behind) =>
        have : behind.length ≤ rest.length :=
          Nat.le_trans (keyword?_rest_le h) (List.dropWhile_sublist _).length_le
        ' ' :: word ++ blankSemicolons behind
      | none => c :: blankSemicolons rest
    else c :: blankSemicolons rest
termination_by t.length

/-- What counts of a raw line. -/
def prepare (raw : Text) : Text :=
  let line := (cutComment none raw.trim).trim
  blankSemicolons (dropSemicolon line).trimEnd

/-- The lines that count among raw lines, of which the first has the given number. -/
def numberFrom : Nat → List Text → List Line
  | _, [] => []
  | n, raw :: rest =>
    match prepare raw with
    | [] => numberFrom (n + 1) rest
    | text => ⟨n, text⟩ :: numberFrom (n + 1) rest

/-- The lines that count of a source text. -/
def ofSource (source : Text) : List Line := numberFrom 1 source.lines

/-- A line as it is listed. -/
def listing (l : Line) : Text := Text.ofNat l.number ++ ": ".toList ++ l.text

end Line

end Pseudocode
