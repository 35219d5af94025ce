import Pseudocode.Number

/-!
# Arithmetic

The operations on numbers. Integers stay exact under addition, subtraction, multiplication and
powers with a natural exponent. Division always gives a double, the nearest one to the exact
quotient for integers. The remainder goes through doubles, also for integers. Division by zero and
powers that have no value give infinities or not-a-number, never a fault.
-/

namespace Pseudocode.Number

open Binary64

/-- An operation that is exact on integers and otherwise works on doubles. -/
def mixed (exact : Int → Int → Int) (rounded : Float → Float → Float) (a b : Number) :
    Except Fault Number :=
  match a, b with
  | int m, int n => .ok (int (exact m n))
  | _, _ => do
    let x ← a.toReal
    let y ← b.toReal
    return real (rounded x y)

/-- The sum of two numbers. -/
def add (a b : Number) : Except Fault Number := mixed (· + ·) (· + ·) a b

/-- The difference of two numbers. -/
def subtract (a b : Number) : Except Fault Number := mixed (· - ·) (· - ·) a b

/-- The product of two numbers. -/
def multiply (a b : Number) : Except Fault Number := mixed (· * ·) (· * ·) a b

/-- The opposite of a number. -/
def negate : Number → Number
  | int n => int (-n)
  | real x => real (-x)

/-- Whether a number has a minus sign; a zero may have one. -/
def hasMinus : Number → Bool
  | int n => n < 0
  | real x => match form x with
    | .finite p => p.negative
    | .infinite negative => negative
    | .nan => false

/-- What division by zero gives: not-a-number for zero by zero, else an infinity. -/
def divideByZero (a b : Number) : Except Fault Number :=
  if a.equals (int 0) then .ok (real nan)
  else do
    let x ← a.toReal
    return real (if x.isNaN then nan else infinity (a.hasMinus != b.hasMinus))

/-- The quotient of two numbers. -/
def divide (a b : Number) : Except Fault Number :=
  if b.equals (int 0) then divideByZero a b
  else match a, b with
    | int m, int n =>
      let x := ofRatio (decide (m < 0) != decide (n < 0)) m.natAbs n.natAbs
      if x.isInf then .error .quotientTooLarge else .ok (real x)
    | _, _ => do
      let x ← a.toReal
      let y ← b.toReal
      return real (x / y)

/-- The remainder of two doubles, whose quotient is cut toward zero. -/
def remainder (x y : Float) : Except Fault Float :=
  match form x, form y with
  | .nan, _ => .ok nan
  | _, .nan => .ok nan
  | .infinite _, _ => .error .outsideDomain
  | .finite _, .infinite _ => .ok x
  | .finite p, .finite q => .ok (p.remainder q)

/-- The remainder of a division, computed on doubles. For integers it is an integer again. -/
def modulo (a b : Number) : Except Fault Number :=
  if b.equals (int 0) then .ok (real nan)
  else do
    let x ← a.toReal
    let y ← b.toReal
    let r ← remainder x y
    match a, b with
    | int _, int _ => return int (← (real r).truncate)
    | _, _ => return real r

/-- A power of doubles. A finite power beyond the range of doubles is infinite and positive. -/
def realPower (x y : Float) : Float :=
  let r := x.pow y
  if x.isFinite && y.isFinite && r.isInf then infinity false else r

/-- A power of an integer. Powers of zero, one and minus one are settled by the parity of the
exponent, however large it is. -/
def intPower (m : Int) (n : Nat) : Int :=
  if n = 0 then 1
  else if m.natAbs ≤ 1 then (if n % 2 = 0 then m * m else m)
  else m.pow n

/-- The shortcuts change nothing. -/
theorem intPower_eq_pow (m : Int) (n : Nat) : intPower m n = m.pow n := by
  change intPower m n = m ^ n
  unfold intPower
  split
  · next h => simp [h]
  split
  · next hn hm =>
    have hcases : m = 0 ∨ m = 1 ∨ m = -1 := by omega
    rcases hcases with rfl | rfl | rfl
    · simp [Int.zero_pow hn]
    · rw [Int.one_pow]
      split <;> rfl
    · have hsquare : (-1 : Int) ^ 2 = 1 := rfl
      split
      · obtain ⟨k, rfl⟩ : ∃ k, n = 2 * k := ⟨n / 2, by omega⟩
        rw [Int.pow_mul, hsquare, Int.one_pow]
        rfl
      · obtain ⟨k, rfl⟩ : ∃ k, n = 2 * k + 1 := ⟨n / 2, by omega⟩
        rw [Int.pow_succ, Int.pow_mul, hsquare, Int.one_pow, Int.one_mul]
  · rfl

/-- A power. An operand beyond the range of doubles gives an infinity. -/
def power (a b : Number) : Number :=
  let inexact := match a.toReal, b.toReal with
    | .ok x, .ok y => real (realPower x y)
    | _, _ => real (infinity false)
  match a, b with
  | int m, int n => if 0 ≤ n then int (intPower m n.toNat) else inexact
  | _, _ => inexact

/-- Whether a number is at least, or above, an integer. -/
def isAtLeast (a : Number) (n : Int) : Bool :=
  match a.compare? (int n) with
  | some .gt | some .eq => true
  | _ => false

/-- Whether a number is above an integer. -/
def isAbove (a : Number) (n : Int) : Bool := a.compare? (int n) == some .gt

/-- The magnitude of a number. -/
def absolute : Number → Number
  | int n => int n.natAbs
  | real x => real x.abs

/-- The square root; negative numbers have none. -/
def squareRoot (a : Number) : Except Fault Number :=
  if a.isAtLeast 0 then do
    let x ← a.toReal
    return real x.sqrt
  else .ok (real nan)

/-- A positive integer as a fraction of at least a half and below one, rounded to a double, and
the power of two it is to be multiplied by. -/
def fraction (n : Nat) : Float × Nat :=
  let bits := n.log2 + 1
  let x := ofRatio false n (Nat.pow 2 bits)
  if x < 1 then (x, bits) else (0.5, bits + 1)

/-- The natural logarithm. An integer beyond the range of doubles is taken apart into a fraction and
a power of two. -/
def logarithm (a : Number) : Number :=
  if a.equals (int 0) then real (infinity true)
  else if a.isAbove 0 then
    match a with
    | real x => real x.log
    | int n => match ofInt? n with
      | some x => real x.log
      | none =>
        let (x, bits) := fraction n.natAbs
        real (x.log + (2 : Float).log * ofRatio false bits 1)
  else real nan

/-- The exponential function. An integer beyond the range of doubles gives an infinity. -/
def exponential (a : Number) : Number :=
  match a.toReal with
  | .ok x => real x.exp
  | .error _ => real (infinity false)

/-- A function of doubles that has no value at the infinities. -/
def periodic (f : Float → Float) (a : Number) : Except Fault Number := do
  let x ← a.toReal
  if x.isInf then .error .outsideDomain else return real (f x)

/-- A finite number cut to its integer part, any other number as it is. -/
def cut (a : Number) : Except Fault Number := do
  if ← a.isFinite then return int (← a.truncate) else return a

/-- A finite number rounded to an integer, halves upward; any other number as it is. -/
def round (a : Number) : Except Fault Number := do
  let x ← a.toReal
  match form x with
  | .finite _ =>
    match form (x + 0.5) with
    | .finite p => return int p.floor
    | _ => return a
  | _ => return a

end Pseudocode.Number
