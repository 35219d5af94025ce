import Mathlib.Tactic.LinearCombination
import Pseudocode.Proofs.Binary64.Nearest

/-!
# The rounding of integers

An integer that goes through the doubles comes back as the double nearest to it, where a tie goes
to the even mantissa. `Number.Nearest` says so without a word about mantissas: no double is nearer,
and one that is equally near is told apart by a divisibility. There is at most one such double
(`Nearest.unique`), and it is the one that `ofInt?` finds (`Nearest.exists_ofInt?`).

A quotient is rounded to a natural number of units, at most half a unit away
(`abs_sub_divHalfEven`). From `2 ^ 52` units on all doubles are multiples of the unit
(`IsDouble.exists_eq_mul`), so that no other double can be nearer.
-/

namespace Pseudocode

namespace Binary64

section DivHalfEven

variable {a b m : Nat}

/-- What is rounded is at most a half away, and a half goes to the even neighbour. -/
theorem abs_sub_divHalfEven (a : Nat) (hb : 0 < b) :
    |(a : ℚ) / b - divHalfEven a b| ≤ 1 / 2 ∧
      (|(a : ℚ) / b - divHalfEven a b| = 1 / 2 → Even (divHalfEven a b)) := by
  have hb' : (0 : ℚ) < b := by exact_mod_cast hb
  have hquotient : (a : ℚ) / b = (a / b : Nat) + (a % b : Nat) / b := by
    rw [div_eq_iff hb'.ne', add_mul, div_mul_cancel₀ _ hb'.ne']
    exact_mod_cast (Nat.div_add_mod' a b).symm
  have hnonneg : (0 : ℚ) ≤ (a % b : Nat) / b := by positivity
  have hlt : ((a % b : Nat) : ℚ) / b < 1 := by
    rw [div_lt_one hb']
    exact_mod_cast Nat.mod_lt a hb
  have habove : (1 / 2 : ℚ) < (a % b : Nat) / b ↔ b < 2 * (a % b) := by
    rw [div_lt_div_iff₀ two_pos hb', one_mul, mul_comm]
    exact_mod_cast Iff.rfl
  have hhalf : ((a % b : Nat) : ℚ) / b = 1 / 2 ↔ b = 2 * (a % b) := by
    rw [div_eq_div_iff hb'.ne' two_ne_zero, one_mul, mul_comm, eq_comm]
    exact_mod_cast Iff.rfl
  rw [divHalfEven, hquotient]
  generalize ((a % b : Nat) : ℚ) / b = rest at *
  split
  · next h =>
    have hup : |((a / b : Nat) : ℚ) + rest - (a / b + 1 : Nat)| = 1 - rest := by
      rw [Nat.cast_add_one, add_sub_add_left_eq_sub, abs_sub_comm, abs_of_pos (sub_pos.mpr hlt)]
    have hle : 1 / 2 ≤ rest := h.elim (fun h => (habove.mpr h).le) fun h => (hhalf.mpr h.1).ge
    rw [hup]
    refine ⟨by linarith, fun htie => ?_⟩
    have hodd := h.resolve_left fun h => (habove.mpr h).ne (by linarith)
    rw [Nat.even_add_one, Nat.not_even_iff]
    exact hodd.2
  · next h =>
    rw [add_sub_cancel_left, abs_of_nonneg hnonneg]
    refine ⟨not_lt.mp fun habove' => h (.inl (habove.mp habove')), fun htie => ?_⟩
    have heq := hhalf.mp htie
    exact Nat.even_iff.mpr (by omega)

/-- **Rounding by nearness.** There is one natural number that is less than a half away, or a half
away and even. -/
theorem divHalfEven_eq (hb : 0 < b) (hle : |(a : ℚ) / b - m| ≤ 1 / 2)
    (heven : |(a : ℚ) / b - m| = 1 / 2 → Even m) : divHalfEven a b = m := by
  obtain ⟨hle', heven'⟩ := abs_sub_divHalfEven a hb
  have hnear : |(divHalfEven a b : ℚ) - m| ≤
      |(a : ℚ) / b - divHalfEven a b| + |(a : ℚ) / b - m| := by
    rw [abs_sub_comm ((a : ℚ) / b) (divHalfEven a b)]
    exact abs_sub_le _ _ _
  generalize divHalfEven a b = r at *
  by_contra hne
  -- two numbers that are both at most a half away are one apart and both even
  have hapart : (1 : ℚ) ≤ |(r : ℚ) - m| := by
    have h : (1 : Int) ≤ |(r : Int) - m| := Int.one_le_abs (by omega)
    exact_mod_cast h
  have hone : |(r : Int) - m| ≤ 1 := by
    have h : |(r : ℚ) - m| ≤ 1 := by linarith
    exact_mod_cast h
  obtain ⟨i, hi⟩ := heven' (by linarith)
  obtain ⟨j, hj⟩ := heven (by linarith)
  rw [abs_le] at hone
  omega

/-- The rounding depends on the quotient alone. -/
theorem divHalfEven_congr {c d : Nat} (hb : 0 < b) (hd : 0 < d) (h : (a : ℚ) / b = c / d) :
    divHalfEven a b = divHalfEven c d := by
  obtain ⟨hle, heven⟩ := abs_sub_divHalfEven c hd
  exact divHalfEven_eq hb (h ▸ hle) (h ▸ heven)

/-- The unit of a quotient of at least 53 bits is a whole number. -/
theorem exists_unitExponent_eq {n d : Nat} (hd : 0 < d) (h : leadingBit * d ≤ n) :
    ∃ u : Nat, unitExponent n d = u ∧ 2 ^ (52 + u) * d ≤ n := by
  have hn : 0 < n := lt_of_lt_of_le (Nat.mul_pos (by decide) hd) h
  have hd' : (0 : ℚ) < d := by exact_mod_cast hd
  obtain ⟨-, hupper, hlower⟩ := unitExponent_spec hn hd
  generalize unitExponent n d = e at *
  have hunit : 0 ≤ e := by
    have hlt : (2 : ℚ) ^ (52 : Int) < 2 ^ (53 + e) := by
      refine lt_of_le_of_lt ?_ hupper
      rw [le_div_iff₀ hd']
      exact_mod_cast h
    have hexponent := (zpow_lt_zpow_iff_right₀ one_lt_two).mp hlt
    omega
  lift e to Nat using hunit with u
  refine ⟨u, rfl, ?_⟩
  have hle := hlower.resolve_left (by rw [lowest]; omega)
  rw [le_div_iff₀ hd'] at hle
  exact_mod_cast hle

end DivHalfEven

end Binary64

namespace Number

open Binary64

/-- The double nearest to an integer in the range of doubles. No double is nearer; and of two that
are equally near it is the one whose mantissa is even, which is the multiple of twice their
distance. -/
structure Nearest (n k : Int) : Prop where
  inRange : n.natAbs < overflow
  isDouble : IsDouble k
  closest : ∀ j, IsDouble j → |n - k| ≤ |n - j|
  even : ∀ j, IsDouble j → |n - j| = |n - k| → j ≠ k → 2 * (j - k) ∣ k

variable {n j k : Int} {u : Nat}

/-- There is only one double that an integer is rounded to. -/
theorem Nearest.unique (hj : Nearest n j) (hk : Nearest n k) : j = k := by
  have htie : |n - j| = |n - k| := le_antisymm (hj.closest k hk.isDouble) (hk.closest j hj.isDouble)
  by_contra hne
  have hdvd : 2 * (j - k) ∣ j - k := by
    refine dvd_sub ?_ (hk.even j hj.isDouble htie hne)
    have h := hj.even k hk.isDouble htie.symm (Ne.symm hne)
    rwa [← neg_sub k j, mul_neg, neg_dvd]
  obtain ⟨c, hc⟩ := hdvd
  have hzero : (j - k) * (2 * c - 1) = 0 := by linear_combination -hc
  rcases mul_eq_zero.mp hzero with h | h
  · omega
  · omega

/-- An integer that is a double has a mantissa and an exponent, and is in range. -/
theorem IsDouble.exists_natAbs_eq (h : IsDouble n) : ∃ (m : Nat) (e : Int),
    m < 2 * leadingBit ∧ (n.natAbs : ℚ) = m * 2 ^ e ∧ n.natAbs < overflow := by
  obtain ⟨x, hx⟩ := h
  obtain ⟨p, hp, hvalue⟩ := fraction?_real_eq_some_iff.mp hx
  have habs : (n.natAbs : ℚ) = p.mantissa * 2 ^ p.exponent := by
    rw [← Parts.abs_value, hvalue, Nat.cast_natAbs, Int.cast_abs]
  refine ⟨p.mantissa, p.exponent, (parts_bounds hp).1, habs, ?_⟩
  have hlt := parts_lt_overflow hp
  rw [← habs] at hlt
  exact_mod_cast hlt

/-- An integer that is a double is the double nearest to it. -/
theorem IsDouble.nearest (h : IsDouble n) : Nearest n n := by
  obtain ⟨-, -, -, -, hlt⟩ := h.exists_natAbs_eq
  refine ⟨hlt, h, fun j _ => ?_, fun j _ htie hne => ?_⟩
  · rw [sub_self, abs_zero]
    exact abs_nonneg _
  · rw [sub_self, abs_zero, abs_eq_zero] at htie
    omega

/-- Large doubles are multiples of their unit. -/
theorem IsDouble.exists_eq_mul (h : IsDouble n) (hle : 2 ^ (52 + u) ≤ n.natAbs) :
    ∃ c, n = c * 2 ^ u := by
  obtain ⟨m, e, hm, habs, -⟩ := h.exists_natAbs_eq
  have hlt : (2 : ℚ) ^ ((52 + u : Nat) : Int) < 2 ^ (53 + e) :=
    calc (2 : ℚ) ^ ((52 + u : Nat) : Int) ≤ m * 2 ^ e := by
          rw [← habs, ← cast_two_pow]
          exact_mod_cast hle
      _ < (2 ^ 53 : Nat) * 2 ^ e := by
          gcongr
          exact hm
      _ = 2 ^ (53 + e) := (two_zpow_add 53 e).symm
  have hexponent := (zpow_lt_zpow_iff_right₀ one_lt_two).mp hlt
  obtain ⟨i, rfl⟩ : ∃ i : Nat, e = (i + u : Nat) := ⟨(e - u).toNat, by omega⟩
  have hnat : n.natAbs = m * 2 ^ i * 2 ^ u := by
    rw [← cast_two_pow] at habs
    rw [mul_assoc, ← pow_add]
    exact_mod_cast habs
  apply exists_eq_mul_left_of_dvd
  rw [← Int.dvd_natAbs, hnat, Nat.cast_mul, Nat.cast_pow, Nat.cast_two]
  exact dvd_mul_left _ _

/-- A multiple of a unit that is at most half a unit away is as near as any other, and one that is
equally near is next to it. -/
private theorem closest_multiple {unit r c : Int} (hunit : 0 < unit)
    (hle : 2 * |n - r * unit| ≤ unit) (hne : c ≠ r) : |n - r * unit| ≤ |n - c * unit| ∧
      (|n - c * unit| = |n - r * unit| → 2 * |n - r * unit| = unit ∧ |c - r| = 1) := by
  have hone : 1 ≤ |c - r| := Int.one_le_abs (sub_ne_zero.mpr hne)
  have hapart : |c - r| * unit ≤ |n - c * unit| + |n - r * unit| :=
    calc |c - r| * unit = |c * unit - r * unit| := by rw [← sub_mul, abs_mul, abs_of_pos hunit]
      _ ≤ |c * unit - n| + |n - r * unit| := abs_sub_le _ _ _
      _ = |n - c * unit| + |n - r * unit| := by rw [abs_sub_comm]
  have hle' : unit ≤ |c - r| * unit := le_mul_of_one_le_left hunit.le hone
  refine ⟨by linarith, fun htie => ?_⟩
  have hhalf : 2 * |n - r * unit| = unit := by linarith
  refine ⟨hhalf, le_antisymm ?_ hone⟩
  refine le_of_mul_le_mul_right ?_ hunit
  linarith

/-- The multiple of the unit that is at most half a unit away is the nearest double. -/
private theorem nearest_of_units {r : Int} (hrange : n.natAbs < overflow)
    (hdouble : IsDouble (r * 2 ^ u))
    (hlow : 2 ^ (52 + u) ≤ n.natAbs) (hle : 2 * |n - r * 2 ^ u| ≤ 2 ^ u)
    (heven : 2 * |n - r * 2 ^ u| = 2 ^ u → Even r) : Nearest n (r * 2 ^ u) := by
  have hunit : (0 : Int) < 2 ^ u := by positivity
  have hclosest (c : Int) : |n - r * 2 ^ u| ≤ |n - c * 2 ^ u| := by
    rcases eq_or_ne c r with rfl | hne
    · exact le_rfl
    · exact (closest_multiple hunit hle hne).1
  -- smaller doubles are farther away than the power of two between
  have hbound : ((2 ^ (52 + u) : Nat) : Int) = 2 ^ 52 * 2 ^ u := by
    rw [pow_add, Nat.cast_mul, Nat.cast_pow, Nat.cast_pow, Nat.cast_two]
  have hfar {j : Int} (hj : j.natAbs < 2 ^ (52 + u)) : |n - r * 2 ^ u| < |n - j| := by
    rcases le_total 0 n with hn | hn
    · refine (hclosest (2 ^ 52)).trans_lt ?_
      rw [← hbound, Int.abs_eq_natAbs, Int.abs_eq_natAbs]
      omega
    · refine (hclosest (-2 ^ 52)).trans_lt ?_
      rw [neg_mul, ← hbound, Int.abs_eq_natAbs, Int.abs_eq_natAbs]
      omega
  refine ⟨hrange, hdouble, fun j hj => ?_, fun j hj htie hne => ?_⟩
  · by_cases hsmall : j.natAbs < 2 ^ (52 + u)
    · exact (hfar hsmall).le
    · obtain ⟨c, rfl⟩ := hj.exists_eq_mul (not_lt.mp hsmall)
      exact hclosest c
  · have hlarge : 2 ^ (52 + u) ≤ j.natAbs := not_lt.mp fun hsmall => (hfar hsmall).ne' htie
    obtain ⟨c, rfl⟩ := hj.exists_eq_mul hlarge
    have hne' : c ≠ r := fun h => hne (h ▸ rfl)
    obtain ⟨hhalf, hone⟩ := (closest_multiple hunit hle hne').2 htie
    rw [← sub_mul, ← mul_assoc]
    refine mul_dvd_mul_right ?_ _
    rcases (abs_eq zero_le_one).mp hone with h | h
    · rw [h, mul_one]
      exact (heven hhalf).two_dvd
    · rw [h, mul_neg_one, neg_dvd]
      exact (heven hhalf).two_dvd

/-- The double that an integer is rounded to. -/
private theorem exists_fraction?_ofInt? (hn : n ≠ 0) (hrange : n.natAbs < overflow) :
    ∃ x, ofInt? n = some x ∧ (real x).fraction? = some
      ((n.sign : ℚ) * (roundedMantissa n.natAbs 1 * 2 ^ unitExponent n.natAbs 1)) := by
  have hpos : 0 < n.natAbs := Int.natAbs_pos.mpr hn
  have hform := form_ofRatio (decide (n < 0)) hpos one_pos (by rwa [mul_one])
  refine ⟨ofRatio (decide (n < 0)) n.natAbs 1, ?_, fraction?_real_eq_some_iff.mpr ⟨_, hform, ?_⟩⟩
  · rw [ofInt?, hform]
  · rw [Parts.value_eq_sign_mul (fun _ => rfl) fun h => absurd h hn,
      carry_mul _ _ (roundedMantissa_le hpos one_pos)]

/-- Integers of at most 53 bits are doubles. -/
private theorem exists_ofInt?_of_lt (hn : n.natAbs < 2 * leadingBit) :
    ∃ x, ofInt? n = some x ∧ (real x).fraction? = some (n : ℚ) := by
  have hexact : (n.natAbs : ℚ) / (1 : Nat) = n.natAbs * 2 ^ (0 : Int) := by simp
  obtain ⟨m, e, hform, hm⟩ := exists_form_ofRatio_of_eq (decide (n < 0)) one_pos hn
    (by decide) (by decide) hexact
  refine ⟨ofRatio (decide (n < 0)) n.natAbs 1, ?_, fraction?_real_eq_some_iff.mpr ⟨_, hform, ?_⟩⟩
  · rw [ofInt?, hform]
  · refine Parts.value_eq_of_abs rfl ?_
    rw [hm, Nat.cast_one, div_one, Nat.cast_natAbs, Int.cast_abs]

/-- The distance to a multiple of a unit, in units. -/
private theorem abs_sub_sign_mul (hn : n ≠ 0) (r u : Nat) :
    |((n - n.sign * r * 2 ^ u : Int) : ℚ)| = 2 ^ u * |(n.natAbs : ℚ) / 2 ^ u - r| := by
  have hpow : (0 : ℚ) < 2 ^ u := by positivity
  have hsign : n - n.sign * r * 2 ^ u = n.sign * (n.natAbs - r * 2 ^ u) := by
    rw [mul_sub, Int.sign_mul_natAbs, mul_assoc]
  have hunits : (2 : ℚ) ^ u * (n.natAbs / 2 ^ u - r) = n.natAbs - r * 2 ^ u := by
    rw [mul_sub, mul_div_cancel₀ _ hpow.ne', mul_comm]
  rw [hsign, ← Int.cast_abs, abs_mul, Int.abs_sign_of_ne_zero hn, one_mul, Int.cast_abs]
  rw [← abs_of_pos hpow, ← abs_mul, abs_of_pos hpow, hunits, Int.cast_sub, Int.cast_natCast,
    Int.cast_mul, Int.cast_natCast, Int.cast_pow, Int.cast_ofNat]

/-- **Integers are rounded to the nearest double.** -/
theorem exists_ofInt?_nearest (hrange : n.natAbs < overflow) :
    ∃ (x : Float) (k : Int), ofInt? n = some x ∧ (real x).fraction? = some (k : ℚ) ∧
      Nearest n k := by
  by_cases hsmall : n.natAbs < 2 * leadingBit
  · obtain ⟨x, hx, hfraction⟩ := exists_ofInt?_of_lt hsmall
    exact ⟨x, n, hx, hfraction, IsDouble.nearest ⟨x, hfraction⟩⟩
  have hne : n ≠ 0 := by
    rintro rfl
    exact hsmall (by decide)
  obtain ⟨x, hx, hfraction⟩ := exists_fraction?_ofInt? hne hrange
  obtain ⟨u, hu, hlow⟩ := exists_unitExponent_eq (n := n.natAbs) one_pos (by omega)
  obtain ⟨hle, heven⟩ := abs_sub_divHalfEven (scale n.natAbs 1 (unitExponent n.natAbs 1)).1
    (scale_pos n.natAbs one_pos (unitExponent n.natAbs 1))
  rw [scale_eq, ← roundedMantissa, hu, Nat.cast_one, div_one, zpow_natCast] at hle heven
  rw [hu] at hfraction
  generalize roundedMantissa n.natAbs 1 = r at *
  -- both distances are the same up to the unit
  have hdistance := abs_sub_sign_mul hne r u
  have hpow : (0 : ℚ) < 2 ^ u := by positivity
  have hvalue : (n.sign : ℚ) * (r * 2 ^ (u : Int)) = ((n.sign * r * 2 ^ u : Int) : ℚ) := by
    push_cast
    rw [zpow_natCast, mul_assoc]
  rw [hvalue] at hfraction
  rw [mul_one] at hlow
  refine ⟨x, n.sign * r * 2 ^ u, hx, hfraction, nearest_of_units hrange ⟨x, hfraction⟩ hlow ?_ ?_⟩
  · have hle' : 2 * |((n - n.sign * r * 2 ^ u : Int) : ℚ)| ≤ 2 ^ u := by
      rw [hdistance]
      nlinarith
    exact_mod_cast hle'
  · intro htie
    have htie' : 2 * |((n - n.sign * r * 2 ^ u : Int) : ℚ)| = 2 ^ u := by exact_mod_cast htie
    have hhalf : |(n.natAbs : ℚ) / 2 ^ u - r| = 1 / 2 := by
      rw [hdistance] at htie'
      refine mul_left_cancel₀ hpow.ne' ?_
      linarith
    exact ((Int.even_coe_nat r).mpr (heven hhalf)).mul_left _

/-- **The nearest double is found.** -/
theorem Nearest.exists_ofInt? (h : Nearest n k) :
    ∃ x, ofInt? n = some x ∧ (real x).fraction? = some (k : ℚ) := by
  obtain ⟨x, k', hx, hfraction, hk'⟩ := exists_ofInt?_nearest h.inRange
  exact ⟨x, hx, h.unique hk' ▸ hfraction⟩

/-- The nearest double can be computed. -/
private theorem nearest_iff : Nearest n k ↔ (ofInt? n).map ofReal = some (.int k) := by
  constructor
  · intro h
    obtain ⟨x, hx, hfraction⟩ := h.exists_ofInt?
    rw [hx, Option.map_some, ofReal_eq_int_iff.mpr hfraction]
  · intro h
    obtain ⟨x, hx, hreal⟩ := Option.map_eq_some_iff.mp h
    have hrange : n.natAbs < overflow := by
      by_contra hle
      cases hx.symm.trans (ofInt?_eq_none_iff.mpr (not_lt.mp hle))
    obtain ⟨y, j, hy, hfraction, hnearest⟩ := exists_ofInt?_nearest hrange
    obtain rfl := Option.some.inj (hx.symm.trans hy)
    rw [ofReal_eq_int_iff.mpr hfraction] at hreal
    exact int.inj hreal ▸ hnearest

instance (n k : Int) : Decidable (Nearest n k) := decidable_of_iff _ nearest_iff.symm

/-- Only zero is rounded to zero. -/
theorem Nearest.ne_zero (h : Nearest n k) (hn : n ≠ 0) : k ≠ 0 := by
  rintro rfl
  have hunit : IsDouble n.sign := by
    have hlt : n.sign.natAbs < 2 * leadingBit := by
      rw [Int.natAbs_sign_of_ne_zero hn]
      decide
    obtain ⟨x, -, hx⟩ := exists_ofInt?_of_lt hlt
    exact ⟨x, hx⟩
  have hle := h.closest n.sign hunit
  rw [sub_zero, Int.abs_eq_natAbs, Int.abs_eq_natAbs] at hle
  rcases hn.lt_or_gt with hneg | hpos
  · rw [Int.sign_eq_neg_one_of_neg hneg] at hle
    omega
  · rw [Int.sign_eq_one_of_pos hpos] at hle
    omega

end Number

end Pseudocode
