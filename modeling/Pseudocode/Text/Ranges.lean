import Pseudocode.Text.Basic

/-!
# Intervals of code points

A class of characters is given by the closed intervals of its code points, in increasing order.
-/

namespace Pseudocode.Text

/-- Closed intervals of code points, disjoint and in increasing order. -/
abbrev Ranges := List (Nat × Nat)

/-- Whether a character lies in one of the intervals. The search ends at the first interval that
starts beyond it. -/
def Ranges.has : Ranges → Char → Bool
  | [], _ => false
  | (lo, hi) :: rest, c =>
    if c.toNat < lo then false else c.toNat ≤ hi || Ranges.has rest c

/-- The distance of a character from the start of its interval. -/
def Ranges.offset? : Ranges → Char → Option Nat
  | [], _ => none
  | (lo, hi) :: rest, c =>
    if c.toNat < lo then none
    else if c.toNat ≤ hi then some (c.toNat - lo)
    else Ranges.offset? rest c

end Pseudocode.Text
