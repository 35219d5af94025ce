import Pseudocode.Decimal.Shortest
import Pseudocode.Text.Basic

/-!
# Layouts of decimals

A layout decides how the shortest decimal of a double is written: with an exponent or without, and
how whole numbers and exponents look.
-/

namespace Pseudocode.Decimal

open Binary64

/-- How decimals are written. Those whose first digit stands for `10 ^ k` with `least ≤ k < bound`
are written without an exponent. Whole numbers among them end in `.0` if `wholePoint`. Exponents
have a sign and at least `exponentWidth` digits. -/
structure Layout where
  least : Int
  bound : Int
  wholePoint : Bool
  exponentWidth : Nat

/-- Digits without an exponent; the first one stands for `10 ^ leading`. -/
def Layout.positional (layout : Layout) (digits : Text) (leading : Int) : Text :=
  if leading < 0 then
    '0' :: '.' :: List.replicate (-leading - 1).toNat '0' ++ digits
  else
    let size := leading.toNat + 1
    let whole := digits.take size ++ List.replicate (size - digits.length) '0'
    match digits.drop size with
    | [] => if layout.wholePoint then whole ++ ['.', '0'] else whole
    | fraction => whole ++ '.' :: fraction

/-- Digits with an exponent; the first one stands for `10 ^ leading`. -/
def Layout.scientific (layout : Layout) (digits : Text) (leading : Int) : Text :=
  let mantissa := match digits with
    | first :: second :: rest => first :: '.' :: second :: rest
    | short => short
  let power := Text.ofNat leading.natAbs
  let padding := List.replicate (layout.exponentWidth - power.length) '0'
  mantissa ++ 'e' :: (if leading < 0 then '-' else '+') :: padding ++ power

/-- Digits without the zeros at their end, the first digit apart. -/
def stripZeros : Text → Text
  | [] => []
  | first :: rest => first :: (rest.reverse.dropWhile (· == '0')).reverse

/-- The text of a finite double. -/
def Layout.renderParts (layout : Layout) (p : Parts) : Text :=
  let (digits, leading) :=
    if p.mantissa = 0 then (['0'], 0)
    else
      let (d, step) := shortest p
      let all := Text.ofNat d
      (stripZeros all, step + all.length - 1)
  let magnitude :=
    if layout.least ≤ leading ∧ leading < layout.bound then layout.positional digits leading
    else layout.scientific digits leading
  if p.negative then '-' :: magnitude else magnitude

/-- The text of a double. -/
def Layout.render (layout : Layout) (x : Float) : Text :=
  match form x with
  | .nan => "nan".toList
  | .infinite negative => if negative then "-inf".toList else "inf".toList
  | .finite p => layout.renderParts p

end Pseudocode.Decimal
