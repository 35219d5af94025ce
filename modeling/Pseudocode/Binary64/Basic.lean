/-!
# Doubles, exactly

A real number of the language is a double. This module reads a double as the exact number it
stands for and rounds exact numbers back to doubles, in integer arithmetic only: a finite double
is `± mantissa * 2 ^ exponent`, and `ofRatio` is the double nearest to a quotient of natural
numbers, where a tie goes to the even mantissa.
-/

namespace Pseudocode.Binary64

/-- A finite double: it stands for `mantissa * 2 ^ exponent`, negated if `negative`. The sign of a
zero is kept. -/
structure Parts where
  negative : Bool
  mantissa : Nat
  exponent : Int
deriving Repr, DecidableEq

/-- What a double can be. -/
inductive Form where
  | nan
  | infinite (negative : Bool)
  | finite (parts : Parts)
deriving Repr, DecidableEq

/-- The bits of a hidden leading one: mantissas of normal doubles start here. -/
def leadingBit : Nat := Nat.pow 2 52

/-- The lowest exponent of a double. -/
def lowest : Int := -1074

/-- The meaning of a double. -/
def form (x : Float) : Form :=
  let word := x.toBits.toNat
  let negative := decide (Nat.pow 2 63 ≤ word)
  let field := word / leadingBit % 2048
  let fraction := word % leadingBit
  if field = 2047 then
    if fraction = 0 then .infinite negative else .nan
  else if field = 0 then .finite ⟨negative, fraction, lowest⟩
  else .finite ⟨negative, leadingBit + fraction, lowest + (field - 1)⟩

/-- The infinity of the given sign. -/
def infinity (negative : Bool) : Float :=
  Float.ofBits (if negative then 0xFFF0000000000000 else 0x7FF0000000000000)

/-- The quiet not-a-number. -/
def nan : Float := Float.ofBits 0x7FF8000000000000

/-- The double `± mantissa * 2 ^ exponent`, for an exponent that is not below `lowest`, and a
mantissa of at most `2 * leadingBit` that is at least `leadingBit` unless the exponent is `lowest`.
Numbers beyond the largest double become infinite. -/
def ofMantissa (negative : Bool) (mantissa : Nat) (exponent : Int) : Float :=
  let steps := (exponent - lowest).toNat
  let magnitude := steps * leadingBit + mantissa
  if 2047 * leadingBit ≤ magnitude then infinity negative
  else Float.ofBits (UInt64.ofNat (if negative then Nat.pow 2 63 + magnitude else magnitude))

/-- The quotient of two natural numbers, rounded to a natural number; a half goes to the even
neighbour. -/
def divHalfEven (n d : Nat) : Nat :=
  let q := n / d
  let r := n % d
  if d < 2 * r ∨ (d = 2 * r ∧ q % 2 = 1) then q + 1 else q

/-- Two natural numbers whose quotient is `n / (d * 2 ^ e)`. -/
def scale (n d : Nat) (e : Int) : Nat × Nat :=
  if 0 ≤ e then (n, d * Nat.pow 2 e.toNat) else (n * Nat.pow 2 (-e).toNat, d)

/-- The exponent at which a positive quotient `n / d` has a mantissa of 53 bits, or the lowest
exponent if it is too small for that. -/
def unitExponent (n d : Nat) : Int :=
  let guess := (n.log2 : Int) - d.log2 - 53
  let (a, b) := scale n d guess
  max lowest (if 2 * leadingBit ≤ a / b then guess + 1 else guess)

/-- The double nearest to `n / d`, with the given sign. -/
def ofRatio (negative : Bool) (n d : Nat) : Float :=
  if n = 0 then ofMantissa negative 0 lowest
  else
    let e := unitExponent n d
    let (a, b) := scale n d e
    ofMantissa negative (divHalfEven a b) e

/-- The double nearest to an integer, if the integer is not beyond the range of doubles. -/
def ofInt? (n : Int) : Option Float :=
  let x := ofRatio (decide (n < 0)) n.natAbs 1
  match form x with
  | .finite _ => some x
  | _ => none

namespace Parts

/-- The integer part of a number, toward zero. -/
def truncate (p : Parts) : Int :=
  let (a, b) := scale p.mantissa 1 (-p.exponent)
  if p.negative then -((a / b : Nat) : Int) else (a / b : Nat)

/-- Whether a number is an integer. -/
def isIntegral (p : Parts) : Bool :=
  let (a, b) := scale p.mantissa 1 (-p.exponent)
  a % b == 0

/-- The greatest integer that is not above a number. -/
def floor (p : Parts) : Int :=
  if p.negative && !p.isIntegral then p.truncate - 1 else p.truncate

/-- How a number compares with an integer. -/
def compareInt (p : Parts) (n : Int) : Ordering :=
  let signed : Int := if p.negative then -(p.mantissa : Int) else p.mantissa
  if 0 ≤ p.exponent then compare (signed * Int.pow 2 p.exponent.toNat) n
  else compare signed (n * Int.pow 2 (-p.exponent).toNat)

/-- The remainder of the division of `p` by `q`, whose quotient is cut toward zero. It has the
sign of `p`, also when it is zero. -/
def remainder (p q : Parts) : Float :=
  let e := min p.exponent q.exponent
  let a := p.mantissa * Nat.pow 2 (p.exponent - e).toNat
  let b := q.mantissa * Nat.pow 2 (q.exponent - e).toNat
  let (n, d) := scale (a % b) 1 (-e)
  ofRatio p.negative n d

end Parts

/-- Whether a double is an integer. -/
def isIntegral (x : Float) : Bool :=
  match form x with
  | .finite p => p.isIntegral
  | _ => false

end Pseudocode.Binary64
