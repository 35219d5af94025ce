import Pseudocode.Decimal.Reader
import Pseudocode.Number
import Pseudocode.Text.Blank

/-!
# Numerals

The three readers of numbers: the numeral at the start of a text (`leading`), a numeral of an
expression (`ofToken?`), and a text that is an integer as a whole (`integer`).
-/

namespace Pseudocode.Numeral

/-- The number at the very start of a text, with at most one sign, and the rest of the text. -/
def signed? (t : Text) : Option (Float × Text) :=
  let (negative, body) := Decimal.sign t
  match Decimal.unsignedPart body with
  | none => none
  | some (decimal, rest) =>
    some (Decimal.toReal negative decimal.mantissa decimal.exponent, rest)

/-- The number at the start of a text, after any white space; `none` if there is no numeral. The
separators `0x1C` to `0x1F` are white space here but cannot stand before a real number, so a
numeral behind one of them is refused. -/
def leading (t : Text) : Except Fault (Option Float) :=
  match signed? (t.dropWhile Text.isBlank) with
  | none => .ok none
  | some (x, rest) =>
    if (t.takeWhile Text.isBlank).all Text.isNumeralBlank then .ok (some x)
    else .error (.invalidReal (t.take (t.length - rest.length)))

/-- The number that a numeral of an expression stands for: a row of digits is an integer, a point
or an exponent makes it a real number. -/
def ofToken? (t : Text) : Option Number :=
  if t.any fun c => c == '.' || c == 'e' || c == 'E' then
    match Decimal.unsignedPart t with
    | some (decimal, []) => some (.real (Decimal.toReal false decimal.mantissa decimal.exponent))
    | _ => none
  else if t.isEmpty || !t.all Text.isDecimal || decide (Number.maxDigits < t.length) then none
  else some (.int (Decimal.readDigits t))

/-- Whether each underscore of a row of digits and underscores stands between two digits. -/
def underscoresFit : Text → Bool
  | [] => false
  | ['_'] => false
  | [_] => true
  | '_' :: _ => false
  | _ :: '_' :: rest => underscoresFit rest
  | _ :: rest => underscoresFit rest

/-- The integer that a text stands for as a whole: digits, with single underscores between them,
behind at most one sign and with white space around. -/
def integer (t : Text) : Except Fault Int :=
  let (negative, body) := Decimal.sign (t.dropWhile Text.isNumeralBlank)
  let row := body.takeWhile fun c => Text.isDecimal c || c == '_'
  let rest := body.dropWhile fun c => Text.isDecimal c || c == '_'
  let digits := row.filter Text.isDecimal
  if !underscoresFit row then .error (.invalidInteger t)
  else if Number.maxDigits < digits.length then .error (.tooManyDigits (some digits.length))
  else if !rest.all Text.isNumeralBlank then .error (.invalidInteger t)
  else
    let n : Int := Decimal.readDigits digits
    .ok (if negative then -n else n)

end Pseudocode.Numeral
