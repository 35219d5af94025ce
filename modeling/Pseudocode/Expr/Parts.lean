import Pseudocode.Text.Trim
import Pseudocode.Token.Lexer

/-!
# The parts of a list

A list of expressions is cut at its commas, except inside strings, parentheses and brackets. A
quote behind a backslash neither opens nor closes a string. Parts are trimmed, and empty ones are
left out.
-/

namespace Pseudocode

/-- The string that is open behind the character `c`, given the one that is open before it. -/
def quoteAfter (c : Char) : Option Char → Option Char
  | none => some c
  | some q => if c = q then none else some q

/-- The pieces of a text between the commas that separate parts. `previous` is the character
before the text, `quote` the quote of the string that is open, and `depth` the number of open
brackets. -/
def piecesFrom (previous quote : Option Char) (depth : Nat) : Text → List Text
  | [] => [[]]
  | c :: rest =>
    let keep (pieces : List Text) : List Text :=
      match pieces with
      | [] => [[c]]
      | piece :: more => (c :: piece) :: more
    if isQuote c && previous != some '\\' then
      keep (piecesFrom (some c) (quoteAfter c quote) depth rest)
    else if (c == '(' || c == '[') && quote.isNone then
      keep (piecesFrom (some c) quote (depth + 1) rest)
    else if (c == ')' || c == ']') && quote.isNone then
      keep (piecesFrom (some c) quote (depth - 1) rest)
    else if c == ',' && quote.isNone && depth == 0 then
      [] :: piecesFrom (some c) quote depth rest
    else
      keep (piecesFrom (some c) quote depth rest)

/-- The parts of a list of expressions. -/
def splitParts (t : Text) : List Text :=
  ((piecesFrom none none 0 t).map Text.trim).filter (!·.isEmpty)

end Pseudocode
