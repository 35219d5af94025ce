import Pseudocode.Text.Printable

/-!
# Quoted text

The form in which a text is shown inside a message. It stands in single quotes, or in double
quotes when it holds a single quote and no double quote. A backslash, the quote itself, and what
cannot be printed are written with a backslash.
-/

namespace Pseudocode.Text

/-- The single quote. -/
def singleQuote : Char := Char.ofNat 0x27

/-- The double quote. -/
def doubleQuote : Char := Char.ofNat 0x22

/-- A number in hexadecimal notation with at least `width` digits. -/
def hexDigits (width n : Nat) : Text :=
  let digits := Nat.toDigits 16 n
  List.replicate (width - digits.length) '0' ++ digits

/-- A character as it stands between the given quotes. -/
def escape (quote c : Char) : Text :=
  if c = quote ∨ c = '\\' then ['\\', c]
  else if c = '\t' then ['\\', 't']
  else if c = '\n' then ['\\', 'n']
  else if c = '\r' then ['\\', 'r']
  else if isPrintable c then [c]
  else if c.toNat < 0x100 then '\\' :: 'x' :: hexDigits 2 c.toNat
  else if c.toNat < 0x10000 then '\\' :: 'u' :: hexDigits 4 c.toNat
  else '\\' :: 'U' :: hexDigits 8 c.toNat

/-- The quote that a text is shown in. -/
def quoteFor (t : Text) : Char :=
  if t.contains singleQuote && !t.contains doubleQuote then doubleQuote else singleQuote

/-- A text in quotes. -/
def quoted (t : Text) : Text :=
  let q := quoteFor t
  q :: t.flatMap (escape q) ++ [q]

end Pseudocode.Text
