import Pseudocode.Proofs.Binary64.Rounding

/-!
# Sums of doubles

The sum of two doubles is the exact sum, rounded as quotients are (`form_add`). The model of
floating-point numbers has its own way to round, by shifting the mantissa bit by bit to the right
and keeping the last bit and whether any other was lost (`roundedMantissa_shiftRight`); here the two
ways are brought together, exponent by exponent (`targetExponent_eq`, `round_eq`).

A number is rounded to an integer by adding a half and taking the floor. On an integer that is a
double nothing changes (`exists_floor_add_half`), unless the sum falls on a tie: then the integer
must be even.
-/

namespace Pseudocode.Binary64

open Float.Model (Format UnpackedFloat totalExponent)
open Float.Model.UnpackedFloat

/-! ### The parts of a double in the model -/

/-- The sign of a double, as the model of floating-point numbers has it. -/
def modelSign (negative : Bool) : Sign := if negative then .negative else .positive

/-- The parts of a finite double, as the model of floating-point numbers has them. -/
def Parts.unpacked (p : Parts) : UnpackedFloat :=
  if h : p.mantissa = 0 then .zero (modelSign p.negative)
  else .finite (modelSign p.negative) p.mantissa p.exponent (Nat.pos_of_ne_zero h)

private theorem Parts.unpacked_of_eq_zero {p : Parts} (h : p.mantissa = 0) :
    p.unpacked = .zero (modelSign p.negative) := dif_pos h

private theorem Parts.unpacked_of_ne_zero {p : Parts} (h : p.mantissa ≠ 0) :
    p.unpacked =
      .finite (modelSign p.negative) p.mantissa p.exponent (Nat.pos_of_ne_zero h) := dif_neg h

private theorem ofBitVec_unpackSign (b : Word) :
    Sign.ofBitVec (unpackSign b) = modelSign (decide (Nat.pow 2 63 ≤ b.toNat)) := by
  have hlt : b.toNat < 2 ^ 64 := b.isLt
  have hpow : Nat.pow 2 63 = 2 ^ 63 := rfl
  have hsign : (unpackSign b).toNat = b.toNat / 2 ^ 63 := by
    simp [unpackSign_eq, BitVec.extractLsb, BitVec.extractLsb', Nat.shiftRight_eq_div_pow]
    omega
  have hzero : unpackSign b = 0#1 ↔ b.toNat < 2 ^ 63 := by
    rw [← BitVec.toNat_inj, hsign, BitVec.toNat_zero]
    omega
  rw [Sign.ofBitVec]
  by_cases h : b.toNat < 2 ^ 63
  · rw [if_pos (hzero.mpr h), decide_eq_false (by omega)]
    rfl
  · rw [if_neg (mt hzero.mp h), decide_eq_true (by omega)]
    rfl

private theorem finite_congr {s : Sign} {m m' : Nat} {e e' : Int} (hm : m = m') (he : e = e')
    (h : 0 < m) (h' : 0 < m') : UnpackedFloat.finite s m e h = .finite s m' e' h' := by
  subst hm he
  rfl

/-- A finite double is unpacked into its parts. -/
private theorem unpack_toBits {x : Float} {p : Parts} (hx : form x = .finite p) :
    unpack Format.binary64 x.toBits.toBitVec = p.unpacked := by
  let b : Word := x.toBits.toBitVec
  have hsign : Sign.ofBitVec (unpackSign b) = modelSign (decide (Nat.pow 2 63 ≤ x.toBits.toNat)) :=
    ofBitVec_unpackSign b
  have hexponent : (unpackExponent b).toNat = x.toBits.toNat / leadingBit % 2048 :=
    toNat_unpackExponent b
  have hmantissa : (unpackMantissa b).toNat = x.toBits.toNat % leadingBit := toNat_unpackMantissa b
  have hfield : unpackExponent b = 0#_ ↔ x.toBits.toNat / leadingBit % 2048 = 0 := by
    rw [← hexponent, ← BitVec.toNat_inj]
    rfl
  change unpack Format.binary64 b = _
  rw [form] at hx
  split at hx
  · split at hx <;> cases hx
  next hfinite =>
  rcases unpack_cases (mt (unpackExponent_eq_neg_one_iff b).mp hfinite) with
    ⟨he, hm, hunpack⟩ | ⟨he, hpos, hunpack⟩ | ⟨he, hpos, hunpack⟩
  · rw [if_pos (hfield.mp he)] at hx
    cases hx
    have hfraction : x.toBits.toNat % leadingBit = 0 := (unpackMantissa_eq_zero_iff b).mp hm
    rw [hunpack, hsign]
    rw [Parts.unpacked_of_eq_zero (by exact hfraction)]
  · rw [if_pos (hfield.mp he)] at hx
    cases hx
    have hfraction : x.toBits.toNat % leadingBit ≠ 0 := hmantissa ▸ hpos.ne'
    rw [hunpack, hsign]
    refine Eq.trans ?_ (Parts.unpacked_of_ne_zero hfraction).symm
    exact finite_congr hmantissa rfl _ _
  · rw [if_neg (mt hfield.mpr he)] at hx
    cases hx
    have hlead : leadingBit + x.toBits.toNat % leadingBit ≠ 0 := by
      have hbit : leadingBit = 2 ^ 52 := rfl
      omega
    rw [hunpack, hsign]
    refine Eq.trans ?_ (Parts.unpacked_of_ne_zero hlead).symm
    refine finite_congr ?_ ?_ _ _
    · rw [toNat_one_append]
      exact congrArg _ hmantissa
    · rw [hexponent, lowest]
      dsimp only
      omega

/-! ### Rounding in the model -/

/-- What is left of a mantissa that is shifted to the right. -/
private theorem shiftRight_eq (m k : Nat) :
    ExtendedMantissa.mk m false false >>> k =
      ⟨m / 2 ^ k, decide (2 ^ k ≤ 2 * (m % 2 ^ k)),
        decide (m % 2 ^ k ≠ 0 ∧ 2 * (m % 2 ^ k) ≠ 2 ^ k)⟩ := by
  induction k with
  | zero => simp [HShiftRight.hShiftRight, Nat.repeat, Nat.mod_one]
  | succ k ih =>
    have hpow : 0 < 2 ^ k := Nat.two_pow_pos k
    have hlt : m % 2 ^ k < 2 ^ k := Nat.mod_lt m hpow
    have hmod : m % 2 ^ (k + 1) = 2 ^ k * (m / 2 ^ k % 2) + m % 2 ^ k := by
      rw [Nat.pow_succ, Nat.mod_mul, add_comm]
    have hdiv : m / 2 ^ (k + 1) = m / 2 ^ k / 2 := by rw [Nat.pow_succ, Nat.div_div_eq_div_mul]
    change ExtendedMantissa.shiftRightOne (ExtendedMantissa.mk m false false >>> k) = _
    rw [ih, ExtendedMantissa.shiftRightOne, hmod, hdiv, Nat.pow_succ]
    generalize 2 ^ k = b at *
    generalize m % b = r at *
    dsimp only
    refine congrArg₂ (ExtendedMantissa.mk (m / b / 2)) ?_ ?_
    · rw [Bool.eq_iff_iff, bne_iff_ne, decide_eq_true_iff]
      rcases Nat.mod_two_eq_zero_or_one (m / b) with h | h
      · rw [h]
        omega
      · rw [h]
        omega
    · rw [Bool.eq_iff_iff, Bool.or_eq_true, decide_eq_true_iff, decide_eq_true_iff,
        decide_eq_true_iff]
      rcases Nat.mod_two_eq_zero_or_one (m / b) with h | h
      · rw [h]
        omega
      · rw [h]
        omega

/-- Shifting a mantissa to the right rounds it. -/
theorem roundedMantissa_shiftRight (m k : Nat) :
    (ExtendedMantissa.mk m false false >>> k).roundedMantissa = divHalfEven m (2 ^ k) := by
  have hlt : m % 2 ^ k < 2 ^ k := Nat.mod_lt m (Nat.two_pow_pos k)
  rw [shiftRight_eq, ExtendedMantissa.roundedMantissa, divHalfEven]
  generalize 2 ^ k = b at *
  generalize m % b = r at *
  generalize m / b = q at *
  by_cases hround : b ≤ 2 * r
  · by_cases hsticky : r ≠ 0 ∧ 2 * r ≠ b
    · rw [decide_eq_true hround, decide_eq_true hsticky, if_pos (by omega)]
      rfl
    · rw [decide_eq_true hround, decide_eq_false hsticky]
      change q + q % 2 = _
      split <;> omega
  · rw [decide_eq_false hround, if_neg (by omega)]
    by_cases hsticky : r ≠ 0 ∧ 2 * r ≠ b
    · rw [decide_eq_true hsticky]
      rfl
    · rw [decide_eq_false hsticky]
      rfl

/-- Both ways of rounding pick the same unit. -/
theorem targetExponent_eq {m n d : Nat} {e : Int} (hm : 0 < m) (hn : 0 < n) (hd : 0 < d)
    (h : (n : ℚ) / d = m * 2 ^ e) :
    Format.binary64.targetExponent (totalExponent m e) = unitExponent n d := by
  obtain ⟨f, hunit, hlower, hupper⟩ := exists_exponent hn hd
  rw [h] at hlower hupper
  have hpow : (0 : ℚ) < 2 ^ e := zpow_pos two_pos e
  have hle : ((2 ^ m.log2 : Nat) : ℚ) ≤ m := by exact_mod_cast Nat.log2_self_le hm.ne'
  have hlt : (m : ℚ) < (2 ^ (m.log2 + 1) : Nat) := by exact_mod_cast @Nat.lt_log2_self m
  have habove : (2 : ℚ) ^ (52 + f) < 2 ^ (((m.log2 + 1 : Nat) : Int) + e) := by
    rw [two_zpow_add]
    exact hlower.trans_lt (mul_lt_mul_of_pos_right hlt hpow)
  have hbelow : (2 : ℚ) ^ ((m.log2 : Int) + e) < 2 ^ (53 + f) := by
    rw [two_zpow_add]
    exact (mul_le_mul_of_nonneg_right hle hpow.le).trans_lt hupper
  rw [zpow_lt_zpow_iff_right₀ one_lt_two] at habove hbelow
  have hbits : (Format.binary64.mantissaBits : Int) = 53 := rfl
  have hleast : Format.binary64.minExponent = -1074 := rfl
  rw [hunit, Format.targetExponent, totalExponent, hbits, hleast, lowest]
  omega

/-- A rounded mantissa is brought to its exponent. -/
private theorem shiftToTargetExponent_eq (negative : Bool) {m : Nat} {e : Int}
    (hm : m ≤ 2 * leadingBit) (he : lowest ≤ e) :
    shiftToTargetExponent Format.binary64 m e .exact =
      (⟨(carry negative m e).mantissa, false, false⟩, (carry negative m e).exponent) := by
  have hbit : 2 * leadingBit = 2 ^ 53 := rfl
  have hbits : (Format.binary64.mantissaBits : Int) = 53 := rfl
  have hleast : Format.binary64.minExponent = -1074 := rfl
  rw [lowest] at he
  rw [shiftToTargetExponent, shiftToExponent, Format.targetExponent, totalExponent, hbits, hleast,
    carry]
  split
  · next h =>
    have hlog : m.log2 ≤ 52 := by
      rcases Nat.eq_zero_or_pos m with rfl | hpos
      · decide
      · have hlt := (Nat.log2_lt hpos.ne').mpr (h.trans_eq hbit)
        omega
    have hshift : (max ((m.log2 : Int) + 1 + e - 53) (-1074) - e).toNat = 0 := by omega
    rw [hshift, Nat.cast_zero, add_zero]
    rfl
  · next h =>
    obtain rfl : m = 2 ^ 53 := by omega
    rw [Nat.log2_two_pow]
    have hshift : (max (((53 : Nat) : Int) + 1 + e - 53) (-1074) - e).toNat = 1 := by omega
    rw [hshift, Nat.cast_one]
    rfl

private theorem roundWithAccuracy_eq (negative : Bool) {m k : Nat} {e : Int} (he : lowest ≤ e + k)
    (hr : divHalfEven m (2 ^ k) ≤ 2 * leadingBit)
    (htarget : Format.binary64.targetExponent (totalExponent m e) = e + k) :
    roundWithAccuracy Format.binary64 (modelSign negative) m e .exact =
      (carry negative (divHalfEven m (2 ^ k)) (e + k)).unpacked := by
  have hshift : shiftToTargetExponent Format.binary64 m e .exact =
      (ExtendedMantissa.mk m false false >>> k, e + k) := by
    rw [shiftToTargetExponent, shiftToExponent, htarget, add_sub_cancel_left, Int.toNat_natCast]
    rfl
  rw [roundWithAccuracy, hshift]
  dsimp only
  rw [roundedMantissa_shiftRight, shiftToTargetExponent_eq negative hr he]
  rfl

/-- **The model rounds as quotients are rounded.** -/
theorem round_eq (negative : Bool) {m n d : Nat} {e : Int} (hm : 0 < m) (hn : 0 < n) (hd : 0 < d)
    (h : (n : ℚ) / d = m * 2 ^ e) :
    UnpackedFloat.round Format.binary64 (modelSign negative) m e =
      (carry negative (roundedMantissa n d) (unitExponent n d)).unpacked := by
  have htarget := targetExponent_eq hm hn hd h
  have hlow := (unitExponent_spec hn hd).1
  have hle := roundedMantissa_le hn hd
  rw [UnpackedFloat.round, htarget, decreaseExponent]
  dsimp only
  rw [Nat.shiftLeft_eq]
  -- the exponent is lowered to the unit if it is above
  obtain ⟨s, hs⟩ : ∃ s, (e - unitExponent n d).toNat = s := ⟨_, rfl⟩
  obtain ⟨k, hk⟩ : ∃ k : Nat, unitExponent n d = e - s + k :=
    ⟨(unitExponent n d - (e - s)).toNat, by omega⟩
  have hlowered : (n : ℚ) / d = (m * 2 ^ s : Nat) * 2 ^ (e - s) := by
    rw [h, Nat.cast_mul, mul_assoc, ← two_zpow_add]
    congr 2
    omega
  have hpos : 0 < m * 2 ^ s := Nat.mul_pos hm (Nat.two_pow_pos s)
  have hround : divHalfEven (m * 2 ^ s) (2 ^ k) = roundedMantissa n d := by
    refine divHalfEven_congr (Nat.two_pow_pos k) (scale_pos n hd _) ?_
    rw [scale_eq, hlowered, hk, add_comm, two_zpow_add, cast_two_pow]
    field_simp
  rw [hs, roundWithAccuracy_eq negative (k := k) (hk ▸ hlow) (hround ▸ hle)
    ((targetExponent_eq hpos hn hd hlowered).trans hk), hround, ← hk]

/-! ### Sums -/

/-- A mantissa with its sign, at an exponent that is not above its own. -/
private theorem apply_shiftLeft_mul {p : Parts} {e : Int} (he : e ≤ p.exponent) :
    (((modelSign p.negative).apply (p.mantissa <<< (p.exponent - e).toNat : Nat) : Int) : ℚ) *
      2 ^ e = p.value := by
  obtain ⟨s, hs⟩ : ∃ s : Nat, p.exponent = s + e := ⟨(p.exponent - e).toNat, by omega⟩
  rw [Parts.value, hs, add_sub_cancel_right, Int.toNat_natCast, Nat.shiftLeft_eq, two_zpow_add,
    modelSign]
  split
  · rw [Sign.apply, Int.cast_neg, Int.cast_natCast, Nat.cast_mul]
    ring
  · rw [Sign.apply, Int.cast_natCast, Nat.cast_mul]
    ring

section Sum

variable {d : Nat} {j : Int}

/-- An exact sum that is not zero is rounded. -/
private theorem normalize_eq {m e : Int} (hj : j ≠ 0) (hd : 0 < d) (h : (m : ℚ) * 2 ^ e = j / d) :
    UnpackedFloat.normalize Format.binary64 m e .positive =
      (carry (decide (j < 0)) (roundedMantissa j.natAbs d) (unitExponent j.natAbs d)).unpacked := by
  have hpow : (0 : ℚ) < 2 ^ e := zpow_pos two_pos e
  have hd' : (0 : ℚ) < d := by exact_mod_cast hd
  have hpos : 0 < j.natAbs := Int.natAbs_pos.mpr hj
  rw [UnpackedFloat.normalize]
  rcases hj.lt_or_gt with hneg | hneg
  · have hm : m < 0 := by
      have hlt : (m : ℚ) * 2 ^ e < 0 := h ▸ div_neg_of_neg_of_pos (by exact_mod_cast hneg) hd'
      exact_mod_cast neg_of_mul_neg_left hlt hpow.le
    rw [compare_lt_iff_lt.mpr hm, decide_eq_true hneg]
    refine round_eq true (by omega) hpos hd ?_
    rw [Nat.cast_natAbs, abs_of_neg hneg, Int.cast_neg, neg_div, ← h, ← neg_mul, ← Int.cast_neg]
    exact_mod_cast congrArg (fun k : Int => (k : ℚ) * 2 ^ e) (Int.toNat_of_nonneg (by omega)).symm
  · have hm : 0 < m := by
      have hlt : 0 < (m : ℚ) * 2 ^ e := h ▸ div_pos (by exact_mod_cast hneg) hd'
      exact_mod_cast pos_of_mul_pos_left hlt hpow.le
    rw [compare_gt_iff_gt.mpr hm, decide_eq_false hneg.not_gt]
    refine round_eq false (by omega) hpos hd ?_
    rw [Nat.cast_natAbs, abs_of_pos hneg, ← h]
    exact_mod_cast congrArg (fun k : Int => (k : ℚ) * 2 ^ e) (Int.toNat_of_nonneg hm.le).symm

private theorem add_unpacked {p q : Parts} (hp : p.mantissa ≠ 0) (hq : q.mantissa ≠ 0) (hj : j ≠ 0)
    (hd : 0 < d) (h : p.value + q.value = j / d) :
    UnpackedFloat.add Format.binary64 p.unpacked q.unpacked =
      (carry (decide (j < 0)) (roundedMantissa j.natAbs d) (unitExponent j.natAbs d)).unpacked := by
  rw [Parts.unpacked_of_ne_zero hp, Parts.unpacked_of_ne_zero hq]
  change UnpackedFloat.normalize Format.binary64 (_ + _) (min p.exponent q.exponent) .positive = _
  refine normalize_eq hj hd ?_
  rw [Int.cast_add, add_mul]
  exact (congrArg₂ (· + ·) (apply_shiftLeft_mul (min_le_left _ _))
    (apply_shiftLeft_mul (min_le_right _ _))).trans h

/-- A double is put together again from its parts. -/
private theorem pack_unpacked {x : Float} {p : Parts} (hx : form x = .finite p) :
    pack Format.binary64 p.unpacked = x.toBits.toBitVec := by
  have hfinite : x.toBits.toNat / leadingBit % 2048 ≠ 2047 := by
    intro hfield
    rw [form_eq_infinite_or_nan hfield] at hx
    split at hx <;> cases hx
  rw [← unpack_toBits hx]
  exact pack_unpack (mt (unpackExponent_eq_neg_one_iff _).mp hfinite)

/-- **Sums are rounded as quotients are.** -/
theorem form_add {x y : Float} {p q : Parts} (hx : form x = .finite p) (hy : form y = .finite q)
    (hp : p.mantissa ≠ 0) (hq : q.mantissa ≠ 0) (hj : j ≠ 0) (hd : 0 < d)
    (hlt : j.natAbs < overflow * d) (h : p.value + q.value = j / d) :
    form (x + y) = .finite
      (carry (decide (j < 0)) (roundedMantissa j.natAbs d) (unitExponent j.natAbs d)) := by
  have hform := form_ofRatio (decide (j < 0)) (Int.natAbs_pos.mpr hj) hd hlt
  have hbits : (x + y).toBits = (ofRatio (decide (j < 0)) j.natAbs d).toBits := by
    apply UInt64.toBitVec_inj.mp
    change pack Format.binary64 (UnpackedFloat.add Format.binary64
      (unpack Format.binary64 x.toBits.toBitVec) (unpack Format.binary64 y.toBits.toBitVec)) = _
    rw [unpack_toBits hx, unpack_toBits hy, add_unpacked hp hq hj hd h, pack_unpacked hform]
  rw [form, hbits, ← form, hform]

end Sum

/-! ### Adding a half -/

section Half

variable {k : Int}

private theorem sign_mul_natAbs_cast (k : Int) : (k.sign : ℚ) * (k.natAbs : ℚ) = k := by
  rw [← Int.cast_natCast k.natAbs, ← Int.cast_mul, Int.sign_mul_natAbs]

private theorem abs_half_sub (k : Int) :
    |((2 * k + 1).natAbs : ℚ) / (2 : Nat) - k.natAbs| = 1 / 2 := by
  rcases le_or_gt 0 k with h | h
  · have hn : (2 * k + 1).natAbs = 2 * k.natAbs + 1 := by omega
    rw [hn, abs_of_nonneg (by push_cast; linarith)]
    push_cast
    ring
  · have hn : (2 * k + 1).natAbs + 1 = 2 * k.natAbs := by omega
    have hn' : ((2 * k + 1).natAbs : ℚ) + 1 = 2 * k.natAbs := by exact_mod_cast hn
    rw [Nat.cast_two, abs_of_neg (by linarith)]
    linarith

/-- A half more than a large integer is rounded to the integer. -/
private theorem roundedMantissa_half (hk : Number.IsDouble k)
    (heven : Even k ∨ k.natAbs < leadingBit) (hlarge : 2 * leadingBit ≤ (2 * k + 1).natAbs) :
    (roundedMantissa (2 * k + 1).natAbs 2 : ℚ) * 2 ^ unitExponent (2 * k + 1).natAbs 2 =
      k.natAbs := by
  have hdistance := abs_half_sub k
  obtain ⟨u, hu, hle⟩ := exists_unitExponent_eq (n := (2 * k + 1).natAbs) two_pos (by omega)
  have hlow : 2 ^ (52 + u) ≤ k.natAbs := by omega
  rw [roundedMantissa, hu]
  obtain ⟨c, rfl⟩ := hk.exists_eq_mul hlow
  have hpow : (0 : ℚ) < 2 ^ u := by positivity
  have hnatAbs : ((c * 2 ^ u).natAbs : ℚ) = c.natAbs * 2 ^ u := by
    rw [Int.natAbs_mul, Int.natAbs_pow, Nat.cast_mul, Nat.cast_pow]
    rfl
  have hunits : |((2 * (c * 2 ^ u) + 1).natAbs : ℚ) / (2 : Nat) / 2 ^ (u : Int) - c.natAbs| =
      1 / 2 / 2 ^ u := by
    rw [zpow_natCast, ← hdistance, hnatAbs, ← abs_of_pos hpow, ← abs_div, abs_of_pos hpow, sub_div,
      mul_div_cancel_right₀ _ hpow.ne']
  have hround : divHalfEven (scale (2 * (c * 2 ^ u) + 1).natAbs 2 u).1
      (scale (2 * (c * 2 ^ u) + 1).natAbs 2 u).2 = c.natAbs := by
    refine divHalfEven_eq (scale_pos _ two_pos _) ?_ ?_
    · rw [scale_eq, hunits]
      exact div_le_self (by norm_num) (one_le_pow₀ one_le_two)
    · -- a tie leaves the unit one
      intro htie
      rw [scale_eq, hunits] at htie
      have hu : u = 0 := by
        by_contra hu
        exact (div_lt_self one_half_pos (one_lt_pow₀ one_lt_two hu)).ne htie
      subst hu
      rw [pow_zero, mul_one] at heven hlow
      exact Int.natAbs_even.mpr (heven.resolve_right (not_lt.mpr hlow))
  rw [hround, hnatAbs, zpow_natCast]

/-- **Adding a half and taking the floor changes no integer** that is a double, unless it is odd
and too large to have a half between it and the next. -/
theorem exists_floor_add_half {x : Float} {p : Parts} (hx : form x = .finite p) (hk : p.value = k)
    (hne : k ≠ 0) (heven : Even k ∨ k.natAbs < leadingBit) :
    ∃ r, form (x + 0.5) = .finite r ∧ r.floor = k := by
  have hhalf : form 0.5 = .finite ⟨false, leadingBit, -53⟩ := by decide
  have hdouble : Number.IsDouble k := ⟨x, Number.fraction?_real_eq_some_iff.mpr ⟨p, hx, hk⟩⟩
  obtain ⟨-, -, -, -, hrange⟩ := hdouble.exists_natAbs_eq
  have hj : 2 * k + 1 ≠ 0 := by omega
  have hpos : 0 < (2 * k + 1).natAbs := Int.natAbs_pos.mpr hj
  have hlt : (2 * k + 1).natAbs < overflow * 2 := by omega
  have hmantissa : p.mantissa ≠ 0 := by
    intro h
    have hzero : p.value = 0 := by rw [← abs_eq_zero, Parts.abs_value, h, Nat.cast_zero, zero_mul]
    rw [hk] at hzero
    exact hne (by exact_mod_cast hzero)
  have hsum : p.value + (Parts.mk false leadingBit (-53)).value =
      ((2 * k + 1 : Int) : ℚ) / (2 : Nat) := by
    rw [hk, Parts.value, if_neg Bool.false_ne_true, leadingBit]
    norm_num
    ring
  refine ⟨_, form_add hx hhalf hmantissa (by decide) hj two_pos hlt hsum, ?_⟩
  rw [Parts.floor_eq, Parts.value_eq_sign_mul (fun _ => rfl) fun h => absurd h hj,
    carry_mul _ _ (roundedMantissa_le hpos two_pos)]
  by_cases hsmall : (2 * k + 1).natAbs < 2 * leadingBit
  · -- the sum is a double
    have hexact : ((2 * k + 1).natAbs : ℚ) / (2 : Nat) = (2 * k + 1).natAbs * 2 ^ (-1 : Int) := by
      rw [zpow_neg_one, Nat.cast_two, div_eq_mul_inv]
    rw [roundedMantissa_mul hpos two_pos hsmall (by decide) hexact, ← mul_div_assoc,
      sign_mul_natAbs_cast, Int.floor_eq_iff]
    push_cast
    constructor
    · linarith
    · linarith
  · -- the sum is rounded to the integer
    have hsign : (2 * k + 1).sign = k.sign := by
      rcases hne.lt_or_gt with h | h
      · rw [Int.sign_eq_neg_one_of_neg h, Int.sign_eq_neg_one_of_neg (by omega)]
      · rw [Int.sign_eq_one_of_pos h, Int.sign_eq_one_of_pos (by omega)]
    rw [roundedMantissa_half hdouble heven (not_lt.mp hsmall), hsign, sign_mul_natAbs_cast,
      Int.floor_intCast]

end Half

end Pseudocode.Binary64
