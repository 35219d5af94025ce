import Mathlib.Data.Rat.Floor
import Pseudocode.Proofs.Expr.Straying

/-!
# The exact values of numbers

A finite double stands for a fraction, `Parts.value`, and so does every number that is no infinity
and not not-a-number (`Number.fraction?`). The comparison of a double with an integer and the cut
toward zero are carried out on the mantissa and the exponent; here they are traced back to the
fraction. A number that is equal to an integer is cut to that integer, and a double equals the
integer it is cut to exactly if it has no fractional part.

Whether a number is finite depends on its exact value alone: it has one, and its magnitude is below
`overflow` (`isFinite_eq_ok_true_iff`).
-/

namespace Pseudocode

namespace Binary64

/-- A quotient that is a natural number leaves no remainder. -/
theorem scale_fst_eq_mul {n d m : Nat} {e : Int} (hd : 0 < d) (h : (n : ℚ) / d / 2 ^ e = m) :
    (scale n d e).1 = m * (scale n d e).2 := by
  have hne : ((scale n d e).2 : ℚ) ≠ 0 := by exact_mod_cast (scale_pos n hd e).ne'
  rw [← scale_eq, div_eq_iff hne] at h
  exact_mod_cast h

namespace Parts

/-- The fraction that a finite double stands for. Both zeros stand for zero. -/
def value (p : Parts) : ℚ :=
  (if p.negative then -(p.mantissa : ℚ) else p.mantissa) * 2 ^ p.exponent

variable {p : Parts} {k : Int}

/-- The magnitude of a double is that of its mantissa at its exponent. -/
theorem abs_value (p : Parts) : |p.value| = p.mantissa * 2 ^ p.exponent := by
  have hpow : (0 : ℚ) < 2 ^ p.exponent := zpow_pos two_pos _
  rw [value, abs_mul, abs_of_pos hpow]
  split
  · rw [abs_neg, Nat.abs_cast]
  · rw [Nat.abs_cast]

/-- **Comparing with an integer is exact.** -/
theorem compareInt_eq_eq_iff : p.compareInt k = .eq ↔ p.value = k := by
  rw [compareInt, value]
  set signed : Int := if p.negative then -(p.mantissa : Int) else p.mantissa with hsigned
  have hcast : (if p.negative then -(p.mantissa : ℚ) else p.mantissa) = signed := by
    rw [hsigned]
    split <;> simp
  rw [hcast]
  split
  · next h =>
    obtain ⟨n, hn⟩ := Int.eq_ofNat_of_zero_le h
    rw [compare_eq_iff_eq, hn, Int.toNat_natCast, Int.pow_eq, zpow_natCast]
    exact_mod_cast Iff.rfl
  · next h =>
    obtain ⟨n, hn⟩ : ∃ n : Nat, p.exponent = -n := ⟨(-p.exponent).toNat, by omega⟩
    have hpow : (2 : ℚ) ^ n ≠ 0 := pow_ne_zero n two_ne_zero
    rw [compare_eq_iff_eq, hn, neg_neg, Int.toNat_natCast, Int.pow_eq, zpow_neg, zpow_natCast,
      mul_inv_eq_iff_eq_mul₀ hpow]
    exact_mod_cast Iff.rfl

/-- The value of a double is its magnitude with its sign. -/
theorem value_eq_abs (p : Parts) : p.value = if p.negative then -|p.value| else |p.value| := by
  rw [abs_value, value]
  split
  · rw [neg_mul]
  · rfl

/-- **The cut toward zero is exact.** -/
theorem truncate_eq (p : Parts) :
    p.truncate = if p.negative then -⌊|p.value|⌋ else ⌊|p.value|⌋ := by
  have hmagnitude : ((scale p.mantissa 1 (-p.exponent)).1 : ℚ) /
      (scale p.mantissa 1 (-p.exponent)).2 = |p.value| := by
    rw [scale_eq, abs_value, zpow_neg]
    simp
  rw [← hmagnitude, Rat.floor_natCast_div_natCast]
  rfl

/-- A whole number is cut to itself. -/
theorem truncate_eq_of_value (h : p.value = k) : p.truncate = k := by
  have hvalue := p.value_eq_abs
  rw [truncate_eq]
  split
  · next hneg =>
    rw [if_pos hneg] at hvalue
    rw [← neg_eq_iff_eq_neg.mpr hvalue, h, ← Int.cast_neg, Int.floor_intCast, neg_neg]
  · next hneg =>
    rw [if_neg hneg] at hvalue
    rw [← hvalue, h, Int.floor_intCast]

end Parts

end Binary64

namespace Number

open Binary64

/-- The fraction that a number stands for, if it is no infinity and not not-a-number. -/
def fraction? : Number → Option ℚ
  | int k => some k
  | real x => match form x with
    | .finite p => some p.value
    | _ => none

variable {n : Number} {k : Int} {q : ℚ}

/-- An integer is a fraction. -/
theorem fraction?_int (k : Int) : (int k).fraction? = some (k : ℚ) := rfl

/-- A double is a fraction exactly if it is finite, and then the fraction is its value. -/
theorem fraction?_real_eq_some_iff {x : Float} :
    (real x).fraction? = some q ↔ ∃ p, form x = .finite p ∧ p.value = q := by
  rw [fraction?]
  cases form x <;> simp

/-- Equality with an integer is equality of the exact values. -/
theorem equals_int_iff : n.equals (.int k) = true ↔ n.fraction? = some (k : ℚ) := by
  cases n with
  | int j => simp [equals, compare?, fraction?]
  | real x =>
    rw [fraction?_real_eq_some_iff, equals, compare?, compare?.compareReal, beq_iff_eq]
    cases form x with
    | nan => simp
    | infinite negative => cases negative <;> simp
    | finite p => simp [Parts.compareInt_eq_eq_iff]

/-- A number that is an integer is cut to this integer. -/
theorem truncate_eq_of_fraction? (h : n.fraction? = some (k : ℚ)) : n.truncate = .ok k := by
  cases n with
  | int j =>
    have hj : (j : ℚ) = k := Option.some.inj h
    rw [truncate, Int.cast_injective hj]
  | real x =>
    obtain ⟨p, hp, hvalue⟩ := fraction?_real_eq_some_iff.mp h
    rw [truncate_eq_ok hp, Parts.truncate_eq_of_value hvalue]

/-- **Finite is what has an exact value in the range of doubles.** -/
theorem isFinite_eq_ok_true_iff :
    n.isFinite = .ok true ↔ ∃ q, n.fraction? = some q ∧ |q| < overflow := by
  cases n with
  | int k =>
    have hlt : |(k : ℚ)| < overflow ↔ k.natAbs < overflow := by
      rw [← Int.cast_abs, ← Nat.cast_natAbs]
      exact_mod_cast Iff.rfl
    simp only [fraction?_int, Option.some.injEq, exists_eq_left']
    rw [hlt, ← not_le, ← ofInt?_eq_none_iff, isFinite, toReal]
    cases h : ofInt? k with
    | none => simp [bind, Except.bind]
    | some x => simpa [bind, Except.bind, pure, Except.pure] using
        isFinite_iff.mpr (exists_form_of_ofInt? h)
  | real x =>
    have hfinite : (real x).isFinite = .ok true ↔ x.isFinite = true := by
      simp [isFinite, toReal, bind, Except.bind, pure, Except.pure]
    rw [hfinite, isFinite_iff]
    constructor
    · rintro ⟨p, hp⟩
      refine ⟨p.value, fraction?_real_eq_some_iff.mpr ⟨p, hp, rfl⟩, ?_⟩
      rw [Parts.abs_value]
      exact parts_lt_overflow hp
    · rintro ⟨q, hq, -⟩
      obtain ⟨p, hp, -⟩ := fraction?_real_eq_some_iff.mp hq
      exact ⟨p, hp⟩

end Number

end Pseudocode
