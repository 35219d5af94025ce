import Pseudocode.Decimal.Layout
import Pseudocode.Fault

/-!
# Numbers

A number is an integer of any size or a double. The two never mix silently: an integer becomes a
double by rounding to the nearest one, and comparisons between the two are exact.
-/

namespace Pseudocode

open Binary64

/-- A number of the language. -/
inductive Number where
  | int (n : Int)
  | real (x : Float)
deriving Repr, DecidableEq

namespace Number

/-- The most decimal digits an integer may have when it is written or read. -/
def maxDigits : Nat := 4300

/-- The first natural number that has too many digits to be written. -/
def writeLimit : Nat := Nat.pow 10 maxDigits

/-- The double nearest to a number. -/
def toReal : Number → Except Fault Float
  | int n => match ofInt? n with
    | some x => .ok x
    | none => .error .integerTooLarge
  | real x => .ok x

/-- The integer part of a number, toward zero. -/
def truncate : Number → Except Fault Int
  | int n => .ok n
  | real x => match form x with
    | .nan => .error .undefinedInteger
    | .infinite _ => .error .infiniteInteger
    | .finite p => .ok p.truncate

/-- Whether a number is finite; an integer must be within the range of doubles for that to be
known. -/
def isFinite (n : Number) : Except Fault Bool := do
  return (← n.toReal).isFinite

/-- How two numbers compare. There is no answer for not-a-number. -/
def compare? : Number → Number → Option Ordering
  | int a, int b => some (compare a b)
  | real x, real y => if x < y then some .lt else if y < x then some .gt
      else if x == y then some .eq else none
  | real x, int b => compareReal x b
  | int a, real y => (compareReal y a).map Ordering.swap
where
  /-- How a double compares with an integer. -/
  compareReal (x : Float) (n : Int) : Option Ordering :=
    match form x with
    | .nan => none
    | .infinite negative => some (if negative then .lt else .gt)
    | .finite p => some (p.compareInt n)

/-- Whether two numbers are equal. Not-a-number equals nothing. -/
def equals (a b : Number) : Bool := a.compare? b == some .eq

/-- Whether a number is not zero. -/
def isTrue : Number → Bool
  | int n => n != 0
  | real x => !(x == 0)

/-- A whole number as an integer, any other number as it is. -/
def ofReal (x : Float) : Number :=
  match form x with
  | .finite p => if p.isIntegral then int p.truncate else real x
  | _ => real x

/-- An integer in decimal notation. -/
def intText (n : Int) : Except Fault Text :=
  if writeLimit ≤ n.natAbs then .error (.tooManyDigits none) else .ok (Text.ofInt n)

/-- Doubles as they are written in messages and in text operations: whole numbers end in `.0`, and
an exponent is used below `10 ^ -4` and from `10 ^ 16` on. -/
def exactLayout : Decimal.Layout := ⟨-4, 16, true, 2⟩

/-- Doubles as they are listed in the text of an array: whole numbers have no point, and an
exponent is used below `10 ^ -6` and from `10 ^ 10` on. -/
def listLayout : Decimal.Layout := ⟨-6, 10, false, 1⟩

/-- A number as text operations see it. -/
def text : Number → Except Fault Text
  | int n => intText n
  | real x => .ok (exactLayout.render x)

/-- The first power of ten that whole doubles are no longer written out at. -/
def wholeLimit : Nat := Nat.pow 10 21

/-- A double as a program shows it: whole numbers below `10 ^ 21` look like integers. -/
def displayReal (x : Float) : Text :=
  match form x with
  | .nan => "NaN".toList
  | .infinite negative => if negative then "-Infinity".toList else "Infinity".toList
  | .finite p =>
    if p.isIntegral && decide (p.truncate.natAbs < wholeLimit) then Text.ofInt p.truncate
    else exactLayout.render x

/-- A number as a program shows it. -/
def display : Number → Except Fault Text
  | int n => intText n
  | real x => .ok (displayReal x)

end Number

end Pseudocode
