import Pseudocode.Proofs.Binary64.Exact

/-!
# Integers among the doubles

A numeral is rounded to the double nearest to it, and a double that is whole becomes an integer
again. Here it is shown which integers come through unchanged: **exactly those that some double is
equal to** (`Number.ofReal_toReal_eq_int_iff`).

The main step is that a quotient that is a double is rounded to that double
(`exists_form_ofRatio_of_eq`): at the exponent of the rounding it is a natural number of at most 53
bits, so that no remainder is left, and the fields of the result are read back as they were put
together (`form_ofMantissa`).
-/

namespace Pseudocode

namespace Binary64

/-- The form of a finite double that is given by its word. -/
private theorem form_ofBits {word : Nat} (hlt : word < UInt64.size)
    (hfinite : word / leadingBit % 2048 ≠ 2047) :
    form (Float.ofBits (UInt64.ofNat word)) =
      if word / leadingBit % 2048 = 0 then
        .finite ⟨decide (Nat.pow 2 63 ≤ word), word % leadingBit, lowest⟩
      else
        .finite ⟨decide (Nat.pow 2 63 ≤ word), leadingBit + word % leadingBit,
          lowest + ((word / leadingBit % 2048 : Nat) - 1)⟩ := by
  have hword : (UInt64.ofNat word).toNat = word := UInt64.toNat_ofNat_of_lt' hlt
  have hbits : (Float.ofBits (UInt64.ofNat word)).toBits.toNat = word := by
    rw [toBits_ofBits (by rwa [hword]), hword]
  rw [form]
  simp only [hbits, if_neg hfinite]

/-- **The fields of a double are read back.** -/
theorem form_ofMantissa {negative : Bool} {mantissa : Nat} {exponent : Int}
    (hlow : lowest ≤ exponent) (hhigh : exponent ≤ 971) (hbits : mantissa < 2 * leadingBit)
    (hlead : exponent = lowest ∨ leadingBit ≤ mantissa) :
    form (ofMantissa negative mantissa exponent) = .finite ⟨negative, mantissa, exponent⟩ := by
  have hbit : leadingBit = 2 ^ 52 := rfl
  have hsign : Nat.pow 2 63 = 2 ^ 63 := rfl
  have hsize : UInt64.size = 2 ^ 64 := rfl
  obtain ⟨steps, rfl⟩ : ∃ steps : Nat, exponent = lowest + steps :=
    ⟨(exponent - lowest).toNat, by omega⟩
  have hsteps : (lowest + steps - lowest).toNat = steps := by omega
  rw [lowest] at hhigh hlead
  rw [hbit] at hbits hlead
  have hfits : ¬ 2047 * leadingBit ≤ steps * leadingBit + mantissa := by
    rw [hbit]
    omega
  rw [ofMantissa, hsteps, if_neg hfits]
  -- the word, its sign and its two fields
  obtain ⟨word, hword⟩ : ∃ word, (if negative then Nat.pow 2 63 + (steps * leadingBit + mantissa)
      else steps * leadingBit + mantissa) = word := ⟨_, rfl⟩
  have hneg : decide (Nat.pow 2 63 ≤ word) = negative := by
    rw [← hword, hsign, hbit]
    cases negative with
    | false => exact decide_eq_false (by simp only [Bool.false_eq_true, if_false]; omega)
    | true => exact decide_eq_true (Nat.le_add_right _ _)
  have hlt : word < UInt64.size := by
    rw [← hword, hsize, hsign, hbit]
    split <;> omega
  have hmantissa : word % leadingBit = mantissa % leadingBit := by
    rw [← hword, hsign, hbit]
    split <;> omega
  have hfield : word / leadingBit % 2048 = steps + mantissa / leadingBit := by
    rw [← hword, hsign, hbit]
    split <;> omega
  have hfinite : word / leadingBit % 2048 ≠ 2047 := by
    rw [hfield, hbit]
    omega
  rw [hword, form_ofBits hlt hfinite, hneg, hfield, hmantissa, hbit]
  split
  · congr 2
    · omega
    · omega
  · congr 2
    · omega
    · omega

private theorem divHalfEven_mul {b : Nat} (m : Nat) (hb : 0 < b) : divHalfEven (m * b) b = m := by
  rw [divHalfEven, Nat.mul_mod_left, Nat.mul_div_cancel m hb, if_neg (by omega)]

/-- The parts of a double whose mantissa may have been rounded up to one bit too many: then it is
the leading bit of the next exponent. -/
def carry (negative : Bool) (mantissa : Nat) (exponent : Int) : Parts :=
  ⟨negative, if mantissa < 2 * leadingBit then mantissa else leadingBit,
    if mantissa < 2 * leadingBit then exponent else exponent + 1⟩

section Carry

variable {negative : Bool} {m : Nat} {e : Int}

/-- A mantissa that carries keeps its value. -/
theorem carry_mul (negative : Bool) (e : Int) (hm : m ≤ 2 * leadingBit) :
    ((carry negative m e).mantissa : ℚ) * 2 ^ (carry negative m e).exponent = m * 2 ^ e := by
  rw [carry]
  dsimp only
  split
  · rfl
  · have hm' : m = leadingBit * 2 := by omega
    rw [hm', Nat.cast_mul, mul_assoc, zpow_add_one₀ two_ne_zero, mul_comm (2 ^ e), Nat.cast_two]

private theorem ofMantissa_two_mul_leadingBit (he : lowest ≤ e) :
    ofMantissa negative (2 * leadingBit) e = ofMantissa negative leadingBit (e + 1) := by
  have hword : (e - lowest).toNat * leadingBit + 2 * leadingBit =
      (e + 1 - lowest).toNat * leadingBit + leadingBit := by
    have hsteps : (e + 1 - lowest).toNat = (e - lowest).toNat + 1 := by omega
    rw [hsteps]
    ring
  rw [ofMantissa, ofMantissa, hword]

/-- The fields of a double are read back, also if the mantissa was rounded up. -/
private theorem form_ofMantissa_carry (hlow : lowest ≤ e) (hm : m ≤ 2 * leadingBit)
    (hlead : e = lowest ∨ leadingBit ≤ m)
    (hrange : (e - lowest).toNat * leadingBit + m < 2047 * leadingBit) :
    form (ofMantissa negative m e) = .finite (carry negative m e) := by
  have hbit : leadingBit = 2 ^ 52 := rfl
  rw [carry]
  split
  · next h =>
    have hhigh : e ≤ 971 := by
      rw [lowest, hbit] at hlead hrange
      omega
    exact form_ofMantissa hlow hhigh h hlead
  · obtain rfl : m = 2 * leadingBit := by omega
    rw [ofMantissa_two_mul_leadingBit hlow]
    rw [lowest, hbit] at hrange
    exact form_ofMantissa (by omega) (by omega) (by decide) (.inr le_rfl)

end Carry

section Ratio

variable {n d k : Nat} {e : Int}

/-- **The double that a quotient is rounded to.** -/
theorem form_ofRatio (negative : Bool) (hn : 0 < n) (hd : 0 < d) (hlt : n < overflow * d) :
    form (ofRatio negative n d) =
      .finite (carry negative (roundedMantissa n d) (unitExponent n d)) := by
  rw [ofRatio_eq negative hn]
  exact form_ofMantissa_carry (unitExponent_spec hn hd).1 (roundedMantissa_le hn hd)
    (le_roundedMantissa hn hd) (not_le.mp (mt (overflow_le_iff hn hd).mp (not_le.mpr hlt)))

/-- The unit of the rounding is not above the unit of a number of 53 bits that is the quotient. -/
private theorem unitExponent_le (hn : 0 < n) (hd : 0 < d) (hk : k < 2 * leadingBit)
    (he : lowest ≤ e) (h : (n : ℚ) / d = k * 2 ^ e) : unitExponent n d ≤ e := by
  obtain ⟨-, -, hlower⟩ := unitExponent_spec hn hd
  rcases hlower with heq | hlower
  · rw [heq]
    exact he
  have hlt : (2 : ℚ) ^ (52 + unitExponent n d) < 2 ^ (53 + e) :=
    calc (2 : ℚ) ^ (52 + unitExponent n d) ≤ k * 2 ^ e := h ▸ hlower
      _ < (2 ^ 53 : Nat) * 2 ^ e := by
          gcongr
          exact hk
      _ = 2 ^ (53 + e) := (two_zpow_add 53 e).symm
  have hexponent := (zpow_lt_zpow_iff_right₀ one_lt_two).mp hlt
  omega

/-- A quotient that is a number of 53 bits is rounded to that number. -/
theorem roundedMantissa_mul (hn : 0 < n) (hd : 0 < d) (hk : k < 2 * leadingBit) (he : lowest ≤ e)
    (h : (n : ℚ) / d = k * 2 ^ e) :
    (roundedMantissa n d : ℚ) * 2 ^ unitExponent n d = n / d := by
  have hle := unitExponent_le hn hd hk he h
  rw [roundedMantissa]
  generalize unitExponent n d = u at *
  -- in this unit the quotient is a natural number
  obtain ⟨j, rfl⟩ : ∃ j : Nat, e = j + u := ⟨(e - u).toNat, by omega⟩
  have hwhole : (n : ℚ) / d = (k * 2 ^ j : Nat) * 2 ^ u := by
    rw [h, two_zpow_add, Nat.cast_mul, mul_assoc]
  generalize k * 2 ^ j = m at hwhole
  have hscale : (n : ℚ) / d / 2 ^ u = m := by
    rw [hwhole, mul_div_cancel_right₀ _ (zpow_pos two_pos u).ne']
  rw [scale_fst_eq_mul hd hscale, divHalfEven_mul m (scale_pos n hd u), hwhole]

/-- **A quotient that is a double is rounded to that double.** -/
theorem exists_form_ofRatio_of_eq (negative : Bool) (hd : 0 < d) (hk : k < 2 * leadingBit)
    (hlow : lowest ≤ e) (hhigh : e ≤ 971) (h : (n : ℚ) / d = k * 2 ^ e) :
    ∃ m u, form (ofRatio negative n d) = .finite ⟨negative, m, u⟩ ∧
      (m : ℚ) * 2 ^ u = n / d := by
  rcases Nat.eq_zero_or_pos n with rfl | hn
  · refine ⟨0, lowest, ?_, by simp⟩
    rw [ofRatio, if_pos rfl]
    exact form_ofMantissa le_rfl (by decide) (by decide) (.inl rfl)
  have hlt : n < overflow * d := by
    have hd' : (0 : ℚ) < d := by exact_mod_cast hd
    have hlt : (n : ℚ) / d < overflow := h.trans_lt (mul_zpow_lt_overflow hk hhigh)
    rw [div_lt_iff₀ hd'] at hlt
    exact_mod_cast hlt
  have hcarry := carry_mul negative (unitExponent n d) (roundedMantissa_le hn hd)
  exact ⟨_, _, form_ofRatio negative hn hd hlt,
    hcarry.trans (roundedMantissa_mul hn hd hk hlow h)⟩

end Ratio

namespace Parts

/-- A double that has the sign of an integer. -/
theorem value_eq_sign_mul {p : Parts} {n : Int} (hp : n ≠ 0 → p.negative = decide (n < 0))
    (hn : n = 0 → p.mantissa = 0) : p.value = n.sign * (p.mantissa * 2 ^ p.exponent) := by
  rw [value]
  rcases lt_trichotomy n 0 with h | h | h
  · rw [hp h.ne, decide_eq_true h, if_pos rfl, Int.sign_eq_neg_one_of_neg h]
    simp
  · rw [hn h]
    simp
  · rw [hp h.ne', decide_eq_false h.not_gt, if_neg Bool.false_ne_true, Int.sign_eq_one_of_pos h]
    simp

/-- A double is an integer if it has its sign and its magnitude. -/
theorem value_eq_of_abs {p : Parts} {n : Int} (hp : p.negative = decide (n < 0))
    (h : (p.mantissa : ℚ) * 2 ^ p.exponent = |(n : ℚ)|) : p.value = n := by
  have hzero (hn : n = 0) : p.mantissa = 0 := by
    rw [hn, Int.cast_zero, abs_zero, mul_eq_zero_iff_right (zpow_pos two_pos _).ne'] at h
    exact_mod_cast h
  rw [value_eq_sign_mul (fun _ => hp) hzero, h, ← Int.cast_abs, ← Int.cast_mul, Int.sign_mul_abs]

/-- A number is whole exactly if it is an integer. -/
private theorem isIntegral_iff {p : Parts} : p.isIntegral = true ↔ ∃ k : Int, p.value = k := by
  have hmagnitude : (p.mantissa : ℚ) / (1 : Nat) / 2 ^ (-p.exponent) = |p.value| := by
    rw [abs_value, zpow_neg]
    simp
  have hpos := scale_pos p.mantissa one_pos (-p.exponent)
  rw [isIntegral, beq_iff_eq]
  constructor
  · intro h
    obtain ⟨m, hm⟩ := Nat.dvd_of_mod_eq_zero h
    have hne : ((scale p.mantissa 1 (-p.exponent)).2 : ℚ) ≠ 0 := by exact_mod_cast hpos.ne'
    have habs : |p.value| = (m : Int) := by
      rw [← hmagnitude, ← scale_eq, hm, Nat.cast_mul, mul_div_cancel_left₀ _ hne, Int.cast_natCast]
    rcases eq_or_eq_neg_of_abs_eq habs with hvalue | hvalue
    · exact ⟨m, hvalue⟩
    · exact ⟨-m, by rw [hvalue, Int.cast_neg]⟩
  · rintro ⟨k, hk⟩
    rw [hk, ← Int.cast_abs, ← Nat.cast_natAbs] at hmagnitude
    rw [scale_fst_eq_mul one_pos hmagnitude, Nat.mul_mod_left]

/-- **The floor is exact.** -/
theorem floor_eq (p : Parts) : p.floor = ⌊p.value⌋ := by
  by_cases hwhole : p.isIntegral = true
  · obtain ⟨k, hk⟩ := isIntegral_iff.mp hwhole
    rw [floor, hwhole, Bool.not_true, Bool.and_false, if_neg Bool.false_ne_true,
      truncate_eq_of_value hk, hk, Int.floor_intCast]
  have hvalue := p.value_eq_abs
  rw [floor, truncate_eq, Bool.eq_false_of_not_eq_true hwhole, Bool.not_false, Bool.and_true]
  split
  · next hneg =>
    rw [if_pos hneg] at hvalue
    -- the magnitude is no integer, so it is above its floor
    have hne : (⌊|p.value|⌋ : ℚ) ≠ |p.value| := by
      intro h
      refine hwhole (isIntegral_iff.mpr ⟨-⌊|p.value|⌋, ?_⟩)
      rw [Int.cast_neg, h, ← hvalue]
    have hlower : (⌊|p.value|⌋ : ℚ) < |p.value| := (Int.floor_le _).lt_of_ne hne
    have hupper := Int.lt_floor_add_one |p.value|
    rw [eq_comm, Int.floor_eq_iff, hvalue, abs_neg, abs_abs]
    push_cast
    constructor
    · linarith
    · linarith
  · next hneg =>
    rw [if_neg hneg] at hvalue
    rw [← hvalue]

end Parts

end Binary64

open Binary64

/-- A numeral without a point is rounded as it stands. -/
theorem Decimal.toReal_zero (negative : Bool) (mantissa : Nat) :
    Decimal.toReal negative mantissa 0 = ofRatio negative mantissa 1 := by
  rw [Decimal.toReal]
  split
  · next h => rw [h]
  · rw [if_neg (by decide), if_neg (by rw [exponentBound]; omega), if_pos le_rfl]
    simp

namespace Number

/-- Whether an integer is a double: there is one with that exact value. -/
def IsDouble (n : Int) : Prop := ∃ x : Float, (real x).fraction? = some (n : ℚ)

/-- A double becomes the integer that it is equal to, if there is one. -/
theorem ofReal_eq_int_iff {x : Float} {k : Int} :
    ofReal x = .int k ↔ (real x).fraction? = some (k : ℚ) := by
  rw [fraction?_real_eq_some_iff, ofReal]
  cases form x with
  | nan => simp
  | infinite negative => simp
  | finite p =>
    simp only [Form.finite.injEq, exists_eq_left']
    constructor
    · intro h
      split at h
      · next hwhole =>
        obtain ⟨j, hj⟩ := Parts.isIntegral_iff.mp hwhole
        rw [Parts.truncate_eq_of_value hj] at h
        rw [hj, int.inj h]
      · cases h
    · intro h
      rw [if_pos (Parts.isIntegral_iff.mpr ⟨k, h⟩), Parts.truncate_eq_of_value h]

/-- **An integer comes through the doubles exactly if it is one.** -/
theorem ofReal_toReal_eq_int_iff {n : Int} :
    ofReal (Decimal.toReal (decide (n < 0)) n.natAbs 0) = .int n ↔ IsDouble n := by
  rw [ofReal_eq_int_iff]
  constructor
  · exact fun h => ⟨_, h⟩
  · rintro ⟨x, hx⟩
    obtain ⟨p, hp, hvalue⟩ := fraction?_real_eq_some_iff.mp hx
    have habs : ((n.natAbs : Nat) : ℚ) / (1 : Nat) = p.mantissa * 2 ^ p.exponent := by
      rw [← Parts.abs_value, hvalue, Nat.cast_one, div_one, Nat.cast_natAbs, Int.cast_abs]
    obtain ⟨hbits, hlow, hhigh⟩ := parts_bounds hp
    obtain ⟨m, e, hform, hm⟩ :=
      exists_form_ofRatio_of_eq (decide (n < 0)) one_pos hbits hlow hhigh habs
    rw [Decimal.toReal_zero, fraction?_real_eq_some_iff]
    refine ⟨_, hform, Parts.value_eq_of_abs rfl ?_⟩
    rw [hm, Nat.cast_one, div_one, Nat.cast_natAbs, Int.cast_abs]

end Number

end Pseudocode
