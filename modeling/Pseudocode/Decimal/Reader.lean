import Pseudocode.Binary64.Basic
import Pseudocode.Text.Digit

/-!
# Reading decimals

The digits of a numeral may come from any script. A decimal with an exponent becomes the double
nearest to it; exponents far outside the range of doubles are settled without computing the power.
-/

namespace Pseudocode.Decimal

open Binary64

/-- The natural number that a row of decimal digits stands for. Other characters are passed
over. -/
def readDigits (t : Text) : Nat :=
  t.foldl (fun n c => match Text.decimalValue? c with
    | some d => 10 * n + d
    | none => n) 0

/-- The exponents beyond which a positive decimal is too large, or one of few digits too small, to
be a finite double other than zero. -/
def exponentBound : Int := 400

/-- The double nearest to `± mantissa * 10 ^ exponent`. -/
def toReal (negative : Bool) (mantissa : Nat) (exponent : Int) : Float :=
  if mantissa = 0 then ofRatio negative 0 1
  else if exponentBound < exponent then infinity negative
  else if exponent < -exponentBound - mantissa.log2 then ofRatio negative 0 1
  else if 0 ≤ exponent then ofRatio negative (mantissa * Nat.pow 10 exponent.toNat) 1
  else ofRatio negative mantissa (Nat.pow 10 (-exponent).toNat)

/-- A decimal without a sign: `mantissa * 10 ^ exponent`. -/
structure Unsigned where
  mantissa : Nat
  exponent : Int

/-- A sign at the start of a text: whether it is a minus, and the rest. -/
def sign : Text → Bool × Text
  | '+' :: rest => (false, rest)
  | '-' :: rest => (true, rest)
  | rest => (false, rest)

/-- The exponent that may stand at the start of a text, a sign and digits after a letter `e`, and
the rest of the text. -/
def exponentPart : Text → Option (Int × Text)
  | e :: rest =>
    let (negative, digits) := sign rest
    let power := digits.takeWhile Text.isDecimal
    if (e = 'e' ∨ e = 'E') ∧ power ≠ [] then
      let n : Int := readDigits power
      some (if negative then -n else n, digits.dropWhile Text.isDecimal)
    else none
  | [] => none

/-- The sign that may stand at the start of a text, as it is written, and the rest. -/
def signText : Text → Text × Text
  | '+' :: rest => (['+'], rest)
  | '-' :: rest => (['-'], rest)
  | rest => ([], rest)

/-- The exponent that may stand at the start of a text, as it is written, and the rest. -/
def exponentText : Text → Text × Text
  | e :: rest =>
    let power := (signText rest).2.takeWhile Text.isDecimal
    if (e = 'e' ∨ e = 'E') ∧ power ≠ [] then
      (e :: (signText rest).1 ++ power, (signText rest).2.dropWhile Text.isDecimal)
    else ([], e :: rest)
  | [] => ([], [])

/-- A sign and what is behind it make up the text. -/
theorem signText_append (t : Text) : (signText t).1 ++ (signText t).2 = t := by
  unfold signText
  split <;> rfl

/-- An exponent and what is behind it make up the text. -/
theorem exponentText_append (t : Text) : (exponentText t).1 ++ (exponentText t).2 = t := by
  cases t with
  | nil => rfl
  | cons e t =>
    simp only [exponentText]
    split
    · have h := signText_append t
      simp only [List.cons_append, List.append_assoc, List.takeWhile_append_dropWhile, h]
    · rfl

/-- The digits at the start of a text, with at most one point among them and at least one digit:
the part before the point, the part after it, and the rest. -/
def mantissaPart (t : Text) : Option (Text × Text × Text) :=
  let whole := t.takeWhile Text.isDecimal
  match t.dropWhile Text.isDecimal with
  | '.' :: rest =>
    let fraction := rest.takeWhile Text.isDecimal
    if whole.isEmpty && fraction.isEmpty then none
    else some (whole, fraction, rest.dropWhile Text.isDecimal)
  | rest => if whole.isEmpty then none else some (whole, [], rest)

/-- The decimal without a sign at the start of a text, as long as it can be, and the rest. -/
def unsignedPart (t : Text) : Option (Unsigned × Text) :=
  match mantissaPart t with
  | none => none
  | some (whole, fraction, rest) =>
    let mantissa := readDigits (whole ++ fraction)
    let shift : Int := fraction.length
    match exponentPart rest with
    | none => some (⟨mantissa, -shift⟩, rest)
    | some (power, rest) => some (⟨mantissa, power - shift⟩, rest)

end Pseudocode.Decimal
