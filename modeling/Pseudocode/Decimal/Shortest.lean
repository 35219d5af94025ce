import Pseudocode.Binary64.Basic

/-!
# The shortest decimal of a double

Every double has an interval of real numbers around it that are read back as this double; its ends
belong to it when the mantissa is even. `shortest` looks for a decimal with one digit, then two,
and so on, inside that interval. On each grid only the two neighbours of the double can be inside
without a point of a coarser grid being inside too. Of two hits the nearer is taken, and of two
equally near ones the even one.
-/

namespace Pseudocode.Decimal

open Binary64

/-- The numbers that are read back as a double: those from `low / den` to `high / den`, of which
`middle / den` is the double itself. -/
structure Interval where
  low : Nat
  middle : Nat
  high : Nat
  den : Nat
  closed : Bool

/-- The interval of a positive number. The double below a power of two is nearer than the one
above it. -/
def Interval.around (p : Parts) : Interval :=
  let m := 4 * p.mantissa
  let below := if p.mantissa = leadingBit ∧ lowest < p.exponent then 1 else 2
  let e := p.exponent - 2
  let factor := if 0 ≤ e then Nat.pow 2 e.toNat else 1
  let den := if 0 ≤ e then 1 else Nat.pow 2 (-e).toNat
  ⟨(m - below) * factor, m * factor, (m + 2) * factor, den, p.mantissa % 2 == 0⟩

/-- Factors that bring an interval and a grid of step `10 ^ step` to the same scale: a number
`x / den` and a grid point `d` compare as `x * a` and `d * b`. -/
def Interval.gridScale (i : Interval) (step : Int) : Nat × Nat :=
  if 0 ≤ step then (1, i.den * Nat.pow 10 step.toNat) else (Nat.pow 10 (-step).toNat, i.den)

/-- Whether the middle of an interval is at least `10 ^ k`. -/
def Interval.reaches (i : Interval) (k : Int) : Bool :=
  let (a, b) := i.gridScale k
  b ≤ i.middle * a

/-- Raises `k` while the middle of an interval is at least `10 ^ (k + 1)`. -/
def Interval.climb (i : Interval) : Nat → Int → Int
  | 0, k => k
  | steps + 1, k => if i.reaches (k + 1) then i.climb steps (k + 1) else k

/-- The exponent of the first decimal digit of the middle. The estimate from the binary logarithm
is too low by at most three. -/
def Interval.leading (i : Interval) : Int :=
  let bits := (i.middle.log2 : Int) - i.den.log2 - 1
  i.climb 4 (Int.fdiv (bits * 30103) 100000 - 1)

/-- The point of a grid that is inside an interval and nearest to its middle. -/
def Interval.pick? (i : Interval) (step : Int) : Option Nat :=
  let (a, b) := i.gridScale step
  let d := i.middle * a / b
  let downHits := if i.closed then i.low * a ≤ d * b else i.low * a < d * b
  let upHits := if i.closed then (d + 1) * b ≤ i.high * a else (d + 1) * b < i.high * a
  let down := i.middle * a - d * b
  let up := (d + 1) * b - i.middle * a
  if downHits ∧ upHits then
    some (if down < up ∨ (down = up ∧ d % 2 = 0) then d else d + 1)
  else if downHits then some d
  else if upHits then some (d + 1)
  else none

/-- The first hit on the grids of step `10 ^ step`, `10 ^ (step - 1)` and so on, with its step. -/
def Interval.search (i : Interval) : Nat → Int → Nat × Int
  | 0, step =>
    let (a, b) := i.gridScale step
    (i.middle * a / b, step)
  | more + 1, step =>
    match i.pick? step with
    | some d => (d, step)
    | none => i.search more (step - 1)

/-- The shortest decimal `d * 10 ^ k` that is read back as a positive double: `d` and `k`. -/
def shortest (p : Parts) : Nat × Int :=
  let i := Interval.around p
  i.search 17 i.leading

end Pseudocode.Decimal
