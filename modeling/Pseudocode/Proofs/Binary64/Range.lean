import Mathlib.Algebra.Order.Field.Power
import Mathlib.Tactic.FieldSimp
import Mathlib.Tactic.Linarith
import Mathlib.Tactic.Positivity
import Mathlib.Tactic.Ring
import Pseudocode.Binary64.Basic

/-!
# The range of doubles

Which exact numbers are near to a double, and which lie beyond the largest one. The bound is
`overflow`, halfway between the largest double and the number that would follow it: a quotient of
natural numbers rounds to an infinity exactly if it is not below `overflow`
(`form_ofRatio_of_le`, `exists_form_ofRatio`), and an integer has a double that is near to it
exactly if its magnitude is below (`ofInt?_eq_none_iff`).

`form` and the tests of doubles, `Float.isInf` and `Float.isFinite`, say the same about a double.
-/

namespace Pseudocode.Binary64

open Float.Model (Format UnpackedFloat)
open Float.Model.UnpackedFloat

/-! ### The fields of a double -/

/-- A word of a double. -/
abbrev Word := BitVec Format.binary64.numBits

section Fields

variable (b : Word)

/-- The bits of the exponent are the eleven above the mantissa. -/
theorem toNat_unpackExponent : (unpackExponent b).toNat = b.toNat / leadingBit % 2048 := by
  simp [unpackExponent, leadingBit, BitVec.extractLsb, BitVec.extractLsb',
    Nat.shiftRight_eq_div_pow]

/-- The bits of the mantissa are the lowest. -/
theorem toNat_unpackMantissa : (unpackMantissa b).toNat = b.toNat % leadingBit := by
  simp [unpackMantissa, leadingBit, BitVec.extractLsb, BitVec.extractLsb']

/-- The bits of the exponent are all set exactly if their field is the greatest. -/
theorem unpackExponent_eq_neg_one_iff :
    unpackExponent b = -1#_ ↔ b.toNat / leadingBit % 2048 = 2047 := by
  rw [← toNat_unpackExponent, ← BitVec.toNat_inj]
  simp

/-- The bits of the mantissa are all clear exactly if their field is zero. -/
theorem unpackMantissa_eq_zero_iff : unpackMantissa b = 0#_ ↔ b.toNat % leadingBit = 0 := by
  rw [← toNat_unpackMantissa, ← BitVec.toNat_inj]
  simp

/-- The bit of the sign is the highest. -/
theorem unpackSign_eq : unpackSign b = (b.extractLsb 63 63).cast rfl := rfl

variable {b}

/-- A word is put together again from its fields. -/
private theorem packComponents_eq {e : BitVec 11} {m : BitVec 52} (he : unpackExponent b = e)
    (hm : unpackMantissa b = m) :
    packComponents Format.binary64 (Sign.ofBitVec (unpackSign b)) e m = b := by
  subst he hm
  have hsign (s : BitVec 1) : (Sign.ofBitVec s).toBitVec = s := by
    revert s
    decide
  simp only [packComponents, hsign, unpackSign_eq, unpackExponent, unpackMantissa,
    BitVec.extractLsb]
  ext i hi
  grind

/-- The leading one is worth more than all bits of the mantissa. -/
theorem toNat_one_append (m : BitVec 52) : (1#1 ++ m).toNat = leadingBit + m.toNat := by
  rw [BitVec.toNat_append, ← Nat.shiftLeft_add_eq_or_of_lt m.isLt]
  rfl

/-- The word of a finite double: its leading one is not written. -/
private theorem pack_finite (s : Sign) {m : Nat} (e : Int) (hm : 0 < m) :
    pack Format.binary64 (.finite s m e hm) =
      if 2048 ≤ (e + (1023 : Nat) + (52 : Nat)).toNat + 1 then packedInfinity Format.binary64 s
      else if m.log2 + 1 = 53 then
        packComponents Format.binary64 s (BitVec.ofNat 11 (e + (1023 : Nat) + (52 : Nat)).toNat)
          (BitVec.ofNat 52 m)
      else packComponents Format.binary64 s 0#11 (BitVec.ofNat 52 m) := rfl

/-- A mantissa without the leading one. -/
private theorem pack_subnormal {m : BitVec 52} {s : Sign} (hm : 0 < m.toNat) :
    pack Format.binary64 (.finite s m.toNat (-1074) hm) =
      packComponents Format.binary64 s 0#11 m := by
  have hlt : m.toNat < 2 ^ 52 := m.isLt
  have hlog : m.toNat.log2 < 52 := (Nat.log2_lt hm.ne').mpr hlt
  rw [pack_finite, if_neg (by decide), if_neg (by omega), BitVec.ofNat_toNat, BitVec.setWidth_eq]

/-- A mantissa with the leading one. -/
private theorem pack_normal {m : BitVec 52} {e : BitVec 11} {s : Sign} (he : e.toNat < 2047)
    (hm : 0 < (1#1 ++ m).toNat) :
    pack Format.binary64 (.finite s (1#1 ++ m).toNat ((e.toNat : Int) - 1075) hm) =
      packComponents Format.binary64 s e m := by
  have hlt : m.toNat < 2 ^ 52 := m.isLt
  have happend : (1#1 ++ m).toNat = 2 ^ 52 + m.toNat := toNat_one_append m
  have hexponent : ((e.toNat : Int) - 1075 + (1023 : Nat) + (52 : Nat)).toNat = e.toNat := by omega
  -- the leading one alone makes it a mantissa of 53 bits
  have hlog : (1#1 ++ m).toNat.log2 + 1 = 53 := by
    have hlower : 52 ≤ (1#1 ++ m).toNat.log2 := (Nat.le_log2 hm.ne').mpr (by omega)
    have hupper : (1#1 ++ m).toNat.log2 < 53 := (Nat.log2_lt hm.ne').mpr (by omega)
    omega
  have hmantissa : BitVec.ofNat 52 (1#1 ++ m).toNat = m := by
    apply BitVec.toNat_inj.mp
    rw [BitVec.toNat_ofNat, happend]
    omega
  rw [pack_finite, hexponent, if_neg (by omega), if_pos hlog, hmantissa, BitVec.ofNat_toNat,
    BitVec.setWidth_eq]

private theorem unpack_infinite (he : unpackExponent b = -1#_) (hm : unpackMantissa b = 0#_) :
    unpack Format.binary64 b = .infinity (Sign.ofBitVec (unpackSign b)) :=
  (if_pos he).trans (if_pos hm)

private theorem unpack_nan (he : unpackExponent b = -1#_) (hm : unpackMantissa b ≠ 0#_) :
    unpack Format.binary64 b = .notANumber :=
  (if_pos he).trans (if_neg hm)

/-- Any other word is a zero, or a mantissa without the leading one, or one with it. -/
theorem unpack_cases (h : unpackExponent b ≠ -1#_) :
    (unpackExponent b = 0#_ ∧ unpackMantissa b = 0#_ ∧
      unpack Format.binary64 b = .zero (Sign.ofBitVec (unpackSign b))) ∨
    (unpackExponent b = 0#_ ∧ ∃ hm, unpack Format.binary64 b =
      .finite (Sign.ofBitVec (unpackSign b)) (unpackMantissa b).toNat (-1074) hm) ∨
    (unpackExponent b ≠ 0#_ ∧ ∃ hm, unpack Format.binary64 b =
      .finite (Sign.ofBitVec (unpackSign b)) (1#1 ++ unpackMantissa b).toNat
        ((unpackExponent b).toNat - 1075) hm) := by
  by_cases he : unpackExponent b = 0#_
  · by_cases hm : unpackMantissa b = 0#_
    · exact .inl ⟨he, hm, (if_neg h).trans ((if_pos he).trans (dif_pos hm))⟩
    · have hexponent : ((unpackExponent b).toNat : Int) - 1075 + 1 = -1074 := by
        rw [he]
        rfl
      have hpos : 0 < (unpackMantissa b).toNat :=
        Nat.pos_of_ne_zero fun hzero => hm (BitVec.toNat_inj.mp hzero)
      refine .inr (.inl ⟨he, hpos, (if_neg h).trans ((if_pos he).trans ((dif_neg hm).trans ?_))⟩)
      exact congrArg (fun e => UnpackedFloat.finite _ _ e hpos) hexponent
  · have hpos : 0 < (1#1 ++ unpackMantissa b).toNat := by
      rw [toNat_one_append]
      exact Nat.add_pos_left (by decide) _
    exact .inr (.inr ⟨he, hpos, (if_neg h).trans (if_neg he)⟩)

/-- A word that is no infinity and not not-a-number keeps its bits. -/
theorem pack_unpack (h : unpackExponent b ≠ -1#_) :
    pack Format.binary64 (unpack Format.binary64 b) = b := by
  rcases unpack_cases h with ⟨he, hm, hzero⟩ | ⟨he, hm, hsubnormal⟩ | ⟨-, hm, hnormal⟩
  · rw [hzero]
    exact packComponents_eq he hm
  · rw [hsubnormal, pack_subnormal]
    exact packComponents_eq he rfl
  · have hlt : (unpackExponent b).toNat < 2048 := (unpackExponent b).isLt
    have hne : (unpackExponent b).toNat ≠ 2047 := by
      rw [toNat_unpackExponent]
      exact mt (unpackExponent_eq_neg_one_iff b).mpr h
    rw [hnormal, pack_normal (by omega)]
    exact packComponents_eq rfl rfl

private theorem unpack_finite (h : unpackExponent b ≠ -1#_) :
    (unpack Format.binary64 b).isInf = false ∧ (unpack Format.binary64 b).isFinite = true := by
  rcases unpack_cases h with ⟨-, -, hzero⟩ | ⟨-, hm, hsubnormal⟩ | ⟨-, hm, hnormal⟩
  · rw [hzero]
    exact ⟨rfl, rfl⟩
  · rw [hsubnormal]
    exact ⟨rfl, rfl⟩
  · rw [hnormal]
    exact ⟨rfl, rfl⟩

end Fields

/-- A finite double keeps the bits that it is made of. -/
theorem toBits_ofBits {w : UInt64} (h : w.toNat / leadingBit % 2048 ≠ 2047) :
    (Float.ofBits w).toBits = w := by
  have hexponent : @unpackExponent Format.binary64 w.toBitVec ≠ -1#_ :=
    mt (unpackExponent_eq_neg_one_iff w.toBitVec).mp h
  exact UInt64.toBitVec_inj.mp (pack_unpack hexponent)

/-! ### The form of a double and its tests -/

private theorem exists_form_eq_finite {x : Float} (h : x.toBits.toNat / leadingBit % 2048 ≠ 2047) :
    ∃ p, form x = .finite p := by
  rw [form, if_neg h]
  split
  · exact ⟨_, rfl⟩
  · exact ⟨_, rfl⟩

/-- With the greatest field of the exponent a double is infinite or not a number. -/
theorem form_eq_infinite_or_nan {x : Float} (h : x.toBits.toNat / leadingBit % 2048 = 2047) :
    form x = if x.toBits.toNat % leadingBit = 0 then
      .infinite (decide (Nat.pow 2 63 ≤ x.toBits.toNat)) else .nan := by
  rw [form, if_pos h]

/-- The tests of a double, by its form. -/
private theorem form_cases (x : Float) :
    (form x = .nan ∧ x.isInf = false ∧ x.isFinite = false) ∨
      (∃ negative, form x = .infinite negative ∧ x.isInf = true ∧ x.isFinite = false) ∨
      ∃ p, form x = .finite p ∧ x.isInf = false ∧ x.isFinite = true := by
  let b : Word := x.toBits.toBitVec
  have hisInf : x.isInf = (unpack Format.binary64 b).isInf := rfl
  have hisFinite : x.isFinite = (unpack Format.binary64 b).isFinite := rfl
  rw [hisInf, hisFinite]
  by_cases h : x.toBits.toNat / leadingBit % 2048 = 2047
  · have hexponent : unpackExponent b = -1#_ := (unpackExponent_eq_neg_one_iff b).mpr h
    by_cases hzero : x.toBits.toNat % leadingBit = 0
    · have hmantissa : unpackMantissa b = 0#_ := (unpackMantissa_eq_zero_iff b).mpr hzero
      rw [unpack_infinite hexponent hmantissa]
      exact .inr (.inl ⟨_, (form_eq_infinite_or_nan h).trans (if_pos hzero), rfl, rfl⟩)
    · have hmantissa : unpackMantissa b ≠ 0#_ := mt (unpackMantissa_eq_zero_iff b).mp hzero
      rw [unpack_nan hexponent hmantissa]
      exact .inl ⟨(form_eq_infinite_or_nan h).trans (if_neg hzero), rfl, rfl⟩
  · have hexponent : unpackExponent b ≠ -1#_ := mt (unpackExponent_eq_neg_one_iff b).mp h
    obtain ⟨p, hp⟩ := exists_form_eq_finite h
    exact .inr (.inr ⟨p, hp, unpack_finite hexponent⟩)

/-- A double tests as infinite exactly if it is so by its form. -/
theorem isInf_iff {x : Float} : x.isInf = true ↔ ∃ negative, form x = .infinite negative := by
  rcases form_cases x with ⟨hform, hinf, -⟩ | ⟨negative, hform, hinf, -⟩ | ⟨p, hform, hinf, -⟩ <;>
    simp [hform, hinf]

/-- A double tests as finite exactly if it is so by its form. -/
theorem isFinite_iff {x : Float} : x.isFinite = true ↔ ∃ p, form x = .finite p := by
  rcases form_cases x with ⟨hform, -, hfin⟩ | ⟨negative, hform, -, hfin⟩ | ⟨p, hform, -, hfin⟩ <;>
    simp [hform, hfin]

/-- The parts of a finite double. -/
theorem parts_bounds {x : Float} {p : Parts} (h : form x = .finite p) :
    p.mantissa < 2 * leadingBit ∧ lowest ≤ p.exponent ∧ p.exponent ≤ 971 := by
  have hfraction : x.toBits.toNat % leadingBit < leadingBit := Nat.mod_lt _ (by decide)
  rw [form] at h
  split at h
  · split at h <;> cases h
  · split at h
    · cases h
      dsimp only [lowest]
      omega
    · cases h
      dsimp only [lowest]
      omega

/-- The infinities are infinite. -/
theorem form_infinity (negative : Bool) : form (infinity negative) = .infinite negative := by
  cases negative <;> decide

private theorem form_ofMantissa_of_le {negative : Bool} {mantissa : Nat} {exponent : Int}
    (h : 2047 * leadingBit ≤ (exponent - lowest).toNat * leadingBit + mantissa) :
    form (ofMantissa negative mantissa exponent) = .infinite negative := by
  rw [ofMantissa, if_pos h, form_infinity]

private theorem exists_form_ofMantissa {negative : Bool} {mantissa : Nat} {exponent : Int}
    (h : (exponent - lowest).toNat * leadingBit + mantissa < 2047 * leadingBit) :
    ∃ p, form (ofMantissa negative mantissa exponent) = .finite p := by
  rw [ofMantissa, if_neg (Nat.not_le.mpr h)]
  generalize (exponent - lowest).toNat * leadingBit + mantissa = magnitude at h
  -- the sign is one bit above the fields
  have hword : (if negative then Nat.pow 2 63 + magnitude else magnitude) < UInt64.size ∧
      (if negative then Nat.pow 2 63 + magnitude else magnitude) / leadingBit % 2048 ≠ 2047 := by
    have hbit : leadingBit = 2 ^ 52 := rfl
    have hsign : Nat.pow 2 63 = 2 ^ 63 := rfl
    have hsize : UInt64.size = 2 ^ 64 := rfl
    rw [hbit] at h ⊢
    rw [hsign, hsize]
    split <;> omega
  generalize (if negative then Nat.pow 2 63 + magnitude else magnitude) = word at hword
  have hfield : (UInt64.ofNat word).toNat / leadingBit % 2048 ≠ 2047 := by
    rw [UInt64.toNat_ofNat_of_lt' hword.1]
    exact hword.2
  apply exists_form_eq_finite
  rwa [toBits_ofBits hfield]

/-! ### Rounding a quotient -/

section Ratio

variable {n d : Nat}

/-- Scaling keeps a denominator positive. -/
theorem scale_pos (n : Nat) (hd : 0 < d) (e : Int) : 0 < (scale n d e).2 := by
  rw [scale]
  split
  · exact Nat.mul_pos hd (Nat.pow_pos (by decide))
  · exact hd

/-- Scaling divides a quotient by a power of two. -/
theorem scale_eq (n d : Nat) (e : Int) :
    ((scale n d e).1 : ℚ) / (scale n d e).2 = n / d / 2 ^ e := by
  rw [scale]
  split
  · next h =>
    lift e to Nat using h
    simp [div_div]
  · next h =>
    obtain ⟨k, rfl⟩ : ∃ k : Nat, e = -k := ⟨(-e).toNat, by omega⟩
    simp [mul_div_right_comm]

/-- The binary logarithms of two numbers bound their quotient. -/
private theorem log2_bounds (hn : 0 < n) (hd : 0 < d) :
    (2 : ℚ) ^ ((n.log2 : Int) - d.log2 - 1) < n / d ∧
      (n : ℚ) / d < 2 ^ ((n.log2 : Int) - d.log2 + 1) := by
  have hlower {m : Nat} (hm : 0 < m) : (2 : ℚ) ^ (m.log2 : Int) ≤ m := by
    exact_mod_cast Nat.log2_self_le hm.ne'
  have hupper (m : Nat) : (m : ℚ) < 2 ^ ((m.log2 : Int) + 1) := by
    exact_mod_cast @Nat.lt_log2_self m
  have hd' : (0 : ℚ) < d := by exact_mod_cast hd
  constructor
  · rw [lt_div_iff₀ hd']
    calc (2 : ℚ) ^ ((n.log2 : Int) - d.log2 - 1) * d
        < 2 ^ ((n.log2 : Int) - d.log2 - 1) * 2 ^ ((d.log2 : Int) + 1) := by
          gcongr
          exact hupper d
      _ = 2 ^ (n.log2 : Int) := by
          rw [← zpow_add₀ two_ne_zero]
          congr 1
          ring
      _ ≤ n := hlower hn
  · rw [div_lt_iff₀ hd']
    calc (n : ℚ) < 2 ^ ((n.log2 : Int) + 1) := hupper n
      _ = 2 ^ ((n.log2 : Int) - d.log2 + 1) * 2 ^ (d.log2 : Int) := by
          rw [← zpow_add₀ two_ne_zero]
          congr 1
          ring
      _ ≤ 2 ^ ((n.log2 : Int) - d.log2 + 1) * d := by
          gcongr
          exact hlower hd

private theorem le_scale_div_iff (hd : 0 < d) (e : Int) (k : Nat) :
    k ≤ (scale n d e).1 / (scale n d e).2 ↔ (k : ℚ) * 2 ^ e ≤ n / d := by
  have hb := scale_pos n hd e
  have hb' : (0 : ℚ) < (scale n d e).2 := by exact_mod_cast hb
  rw [Nat.le_div_iff_mul_le hb, ← le_div_iff₀ (zpow_pos two_pos e), ← scale_eq, le_div_iff₀ hb']
  exact_mod_cast Iff.rfl

/-- The exponent at which a quotient has 53 bits. -/
theorem exists_exponent (hn : 0 < n) (hd : 0 < d) :
    ∃ e, unitExponent n d = max lowest e ∧ (2 : ℚ) ^ (52 + e) ≤ n / d ∧
      (n : ℚ) / d < 2 ^ (53 + e) := by
  obtain ⟨hlower, hupper⟩ := log2_bounds hn hd
  let guess : Int := (n.log2 : Int) - d.log2 - 53
  have hbit : ((2 * leadingBit : Nat) : ℚ) * 2 ^ guess = 2 ^ (53 + guess) := by
    rw [zpow_add₀ two_ne_zero]
    norm_num [leadingBit]
  -- the guess is one too low if there are 54 bits
  by_cases h : 2 * leadingBit ≤ (scale n d guess).1 / (scale n d guess).2
  · refine ⟨guess + 1, congrArg (max lowest) (if_pos h), ?_, ?_⟩
    · rw [le_scale_div_iff hd, hbit] at h
      exact le_of_eq_of_le (congrArg _ (by ring)) h
    · exact lt_of_lt_of_eq hupper (congrArg _ (by simp only [guess]; ring))
  · refine ⟨guess, congrArg (max lowest) (if_neg h), ?_, ?_⟩
    · exact le_of_eq_of_le (congrArg _ (by simp only [guess]; ring)) hlower.le
    · rw [le_scale_div_iff hd, hbit, not_le] at h
      exact h

/-- The unit of the last place: the quotient has at most 53 bits before it, and no fewer unless the
exponent is the lowest. -/
theorem unitExponent_spec (hn : 0 < n) (hd : 0 < d) :
    lowest ≤ unitExponent n d ∧ (n : ℚ) / d < 2 ^ (53 + unitExponent n d) ∧
      (unitExponent n d = lowest ∨ (2 : ℚ) ^ (52 + unitExponent n d) ≤ n / d) := by
  obtain ⟨e, he, hlower, hupper⟩ := exists_exponent hn hd
  rw [he]
  refine ⟨le_max_left _ _, hupper.trans_le ?_, ?_⟩
  · exact zpow_le_zpow_right₀ one_le_two (by omega)
  · rcases le_total e lowest with h | h
    · exact .inl (max_eq_left h)
    · rw [max_eq_right h]
      exact .inr hlower

/-- A quotient that is rounded reaches an even number as soon as it is not more than a half
below it. -/
private theorem le_divHalfEven_iff {a b k : Nat} (hb : 0 < b) :
    2 * (k + 1) ≤ divHalfEven a b ↔ (4 * k + 3) * b ≤ 2 * a := by
  have hr : a % b < b := Nat.mod_lt a hb
  have ha : b * (a / b) + a % b = a := Nat.div_add_mod a b
  rw [divHalfEven]
  generalize a / b = q at *
  generalize a % b = r at *
  subst ha
  -- only the odd quotient right below `2 * (k + 1)` depends on the remainder
  have hleft : (4 * k + 3) * b = 4 * (b * k) + 3 * b := by ring
  rcases lt_trichotomy q (2 * k + 1) with h | rfl | h
  · have hq : b * q ≤ b * (2 * k) := Nat.mul_le_mul_left b (by omega)
    have hright : b * (2 * k) = 2 * (b * k) := by ring
    split <;> omega
  · have hright : b * (2 * k + 1) = 2 * (b * k) + b := by ring
    split <;> omega
  · have hq : b * (2 * k + 2) ≤ b * q := Nat.mul_le_mul_left b (by omega)
    have hright : b * (2 * k + 2) = 2 * (b * k) + 2 * b := by ring
    split <;> omega

private theorem le_divHalfEven {a b k : Nat} (h : k ≤ a / b) : k ≤ divHalfEven a b := by
  rw [divHalfEven]
  split <;> omega

private theorem divHalfEven_le {a b k : Nat} (h : a / b < k) : divHalfEven a b ≤ k := by
  rw [divHalfEven]
  split <;> omega

/-- The least number that no double is near to: halfway between the largest double and `2 ^ 1024`,
where the tie goes to the even mantissa. -/
def overflow : Nat := (2 ^ 54 - 1) * 2 ^ 970

/-- A power of two is the same among the naturals and the fractions. -/
theorem cast_two_pow (k : Nat) : ((2 ^ k : Nat) : ℚ) = 2 ^ (k : Int) := by
  rw [zpow_natCast, Nat.cast_pow, Nat.cast_ofNat]

/-- Powers of two multiply, the first of them a natural number. -/
theorem two_zpow_add (k : Nat) (e : Int) : (2 : ℚ) ^ ((k : Int) + e) = (2 ^ k : Nat) * 2 ^ e := by
  rw [zpow_add₀ two_ne_zero, cast_two_pow]

/-- Rounding up to a mantissa with one bit too many. -/
private theorem reaches_iff {a b : Nat} (hb : 0 < b) :
    2 ^ 53 ≤ divHalfEven a b ↔ (2 ^ 54 - 1 : ℚ) ≤ 2 * (a / b) := by
  have hb' : (0 : ℚ) < b := by exact_mod_cast hb
  have hround := le_divHalfEven_iff (a := a) (k := 2 ^ 52 - 1) hb
  rw [← mul_div_assoc, le_div_iff₀ hb']
  refine hround.trans ?_
  norm_num
  exact_mod_cast Iff.rfl

private theorem overflow_eq : (overflow : ℚ) = (2 ^ 54 - 1) * 2 ^ (970 : Int) := by
  rw [overflow, Nat.cast_mul, cast_two_pow 970]
  norm_num

-- from here on the bound is known by its value as a fraction, and never computed
attribute [irreducible] overflow

/-- The range of doubles is not empty. -/
theorem overflow_pos : 0 < overflow := by
  have h : (0 : ℚ) < overflow := by
    rw [overflow_eq]
    exact mul_pos (by norm_num) (zpow_pos two_pos 970)
  exact_mod_cast h

private theorem reaches_last_iff (hd : 0 < d) :
    2 ^ 53 ≤ divHalfEven (scale n d 971).1 (scale n d 971).2 ↔
      (2 ^ 54 - 1) * 2 ^ (970 : Int) ≤ (n : ℚ) / d := by
  have hunit : (2 : ℚ) ^ (971 : Int) = 2 * 2 ^ (970 : Int) := two_zpow_add 1 970
  have hhalf : 2 * ((n : ℚ) / d / 2 ^ (971 : Int)) = n / d / 2 ^ (970 : Int) := by
    rw [hunit]
    field_simp
  rw [reaches_iff (scale_pos n hd 971), scale_eq, hhalf, le_div_iff₀ (zpow_pos two_pos _)]

/-- The mantissa that a quotient is rounded to, in units of the exponent `unitExponent`. -/
def roundedMantissa (n d : Nat) : Nat :=
  divHalfEven (scale n d (unitExponent n d)).1 (scale n d (unitExponent n d)).2

/-- A quotient is rounded to a mantissa at its unit. -/
theorem ofRatio_eq (negative : Bool) (hn : 0 < n) :
    ofRatio negative n d = ofMantissa negative (roundedMantissa n d) (unitExponent n d) := by
  rw [ofRatio, if_neg hn.ne', roundedMantissa]

/-- A mantissa that is rounded has at most one bit more. -/
theorem roundedMantissa_le (hn : 0 < n) (hd : 0 < d) : roundedMantissa n d ≤ 2 * leadingBit := by
  obtain ⟨-, hupper, -⟩ := unitExponent_spec hn hd
  apply divHalfEven_le
  rw [← not_le, le_scale_div_iff hd, not_le]
  exact hupper.trans_eq (two_zpow_add 53 _)

/-- A mantissa that is rounded has its leading one, unless the exponent is the lowest. -/
theorem le_roundedMantissa (hn : 0 < n) (hd : 0 < d) :
    unitExponent n d = lowest ∨ leadingBit ≤ roundedMantissa n d := by
  obtain ⟨-, -, hlower⟩ := unitExponent_spec hn hd
  refine hlower.imp_right fun hlower => ?_
  apply le_divHalfEven
  rw [le_scale_div_iff hd]
  exact (two_zpow_add 52 _).symm.trans_le hlower

/-- What is put together by rounding reaches the infinities exactly if the quotient reaches the
bound. -/
theorem overflow_le_iff (hn : 0 < n) (hd : 0 < d) :
    2047 * leadingBit ≤ (unitExponent n d - lowest).toNat * leadingBit + roundedMantissa n d ↔
      overflow * d ≤ n := by
  obtain ⟨hlowest, hupper, hlower⟩ := unitExponent_spec hn hd
  have hm := roundedMantissa_le hn hd
  have hm' := le_roundedMantissa hn hd
  have hd' : (0 : ℚ) < d := by exact_mod_cast hd
  have hover : overflow * d ≤ n ↔ (2 ^ 54 - 1) * 2 ^ (970 : Int) ≤ (n : ℚ) / d := by
    rw [← overflow_eq, le_div_iff₀ hd']
    exact_mod_cast Iff.rfl
  rw [hover]
  rw [roundedMantissa] at hm hm' ⊢
  generalize unitExponent n d = e at *
  have hbit : leadingBit = 2 ^ 52 := rfl
  rw [hbit] at hm hm' ⊢
  rw [lowest] at *
  rcases lt_trichotomy e 971 with h | rfl | h
  · -- below the last exponent, rounding up cannot get beyond it
    refine iff_of_false (by omega) (not_le.mpr (hupper.trans_le ?_))
    calc (2 : ℚ) ^ (53 + e) ≤ 2 ^ ((53 : Nat) + (970 : Int)) :=
          zpow_le_zpow_right₀ one_le_two (by omega)
      _ = (2 ^ 53 : Nat) * 2 ^ (970 : Int) := two_zpow_add 53 970
      _ ≤ (2 ^ 54 - 1) * 2 ^ (970 : Int) := by
          gcongr
          norm_num
  · -- at the last exponent, rounding up gets beyond it
    rw [← reaches_last_iff hd]
    omega
  · -- beyond it, the mantissa has its leading one
    have hlead : (2 : ℚ) ^ (52 + e) ≤ n / d := hlower.resolve_left (by omega)
    refine iff_of_true (by omega) (le_trans ?_ hlead)
    calc (2 ^ 54 - 1) * (2 : ℚ) ^ (970 : Int) ≤ (2 ^ 54 : Nat) * 2 ^ (970 : Int) := by
          gcongr
          norm_num
      _ = 2 ^ ((54 : Nat) + (970 : Int)) := (two_zpow_add 54 970).symm
      _ ≤ 2 ^ (52 + e) := zpow_le_zpow_right₀ one_le_two (by omega)

/-- A quotient that is out of range is rounded to an infinity. -/
theorem form_ofRatio_of_le {negative : Bool} (hd : 0 < d) (h : overflow * d ≤ n) :
    form (ofRatio negative n d) = .infinite negative := by
  have hn : 0 < n := lt_of_lt_of_le (Nat.mul_pos overflow_pos hd) h
  rw [ofRatio_eq negative hn]
  exact form_ofMantissa_of_le ((overflow_le_iff hn hd).mpr h)

/-- A quotient in range is rounded to a finite double. -/
theorem exists_form_ofRatio (negative : Bool) (hd : 0 < d) (h : n < overflow * d) :
    ∃ p, form (ofRatio negative n d) = .finite p := by
  rcases Nat.eq_zero_or_pos n with rfl | hn
  · rw [ofRatio, if_pos rfl]
    exact exists_form_ofMantissa (by decide)
  · rw [ofRatio_eq negative hn]
    exact exists_form_ofMantissa (not_le.mp (mt (overflow_le_iff hn hd).mp (not_le.mpr h)))

/-- A quotient is rounded to an infinity exactly if it is out of range. -/
theorem isInf_ofRatio_iff {negative : Bool} (hd : 0 < d) :
    (ofRatio negative n d).isInf = true ↔ overflow * d ≤ n := by
  rw [isInf_iff]
  constructor
  · rintro ⟨sign, hsign⟩
    by_contra h
    obtain ⟨p, hp⟩ := exists_form_ofRatio negative hd (not_le.mp h)
    cases hsign.symm.trans hp
  · exact fun h => ⟨negative, form_ofRatio_of_le hd h⟩

end Ratio

/-- An integer has no double exactly if it is out of range. -/
theorem ofInt?_eq_none_iff {k : Int} : ofInt? k = none ↔ overflow ≤ k.natAbs := by
  constructor
  · intro h
    by_contra hlt
    have hlt' : k.natAbs < overflow * 1 := by omega
    obtain ⟨p, hp⟩ := exists_form_ofRatio (decide (k < 0)) one_pos hlt'
    rw [ofInt?, hp] at h
    cases h
  · intro h
    rw [ofInt?, form_ofRatio_of_le one_pos (by omega)]

/-- The double of an integer is finite. -/
theorem exists_form_of_ofInt? {k : Int} {x : Float} (h : ofInt? k = some x) :
    ∃ p, form x = .finite p := by
  rw [ofInt?] at h
  split at h
  · next p hp =>
    obtain rfl := Option.some.inj h
    exact ⟨p, hp⟩
  · cases h

/-- A number of 53 bits that is not above the last exponent is below the bound. -/
theorem mul_zpow_lt_overflow {m : Nat} {e : Int} (hm : m < 2 * leadingBit) (he : e ≤ 971) :
    (m : ℚ) * 2 ^ e < overflow := by
  have hle : (m : ℚ) ≤ 2 ^ 53 - 1 := by
    have hbit : leadingBit = 2 ^ 52 := rfl
    have hle : m + 1 ≤ 2 ^ 53 := by omega
    rw [le_sub_iff_add_le]
    exact_mod_cast hle
  rw [overflow_eq]
  calc (m : ℚ) * 2 ^ e ≤ (2 ^ 53 - 1) * 2 ^ ((1 : Nat) + (970 : Int)) := by
        gcongr
        · norm_num
        · omega
    _ = (2 ^ 54 - 2) * 2 ^ (970 : Int) := by
        rw [two_zpow_add]
        ring
    _ < (2 ^ 54 - 1) * 2 ^ (970 : Int) := by
        gcongr
        norm_num

/-- A finite double is below the bound. -/
theorem parts_lt_overflow {x : Float} {p : Parts} (hx : form x = .finite p) :
    (p.mantissa : ℚ) * 2 ^ p.exponent < overflow :=
  mul_zpow_lt_overflow (parts_bounds hx).1 (parts_bounds hx).2.2

/-- The remainder of finite doubles is finite: it is not above the dividend. -/
theorem exists_form_remainder {x : Float} {p : Parts} (hx : form x = .finite p) (q : Parts) :
    ∃ r, form (p.remainder q) = .finite r := by
  rw [Parts.remainder]
  -- in units of the smaller exponent both are natural numbers
  generalize he : min p.exponent q.exponent = e
  set a := p.mantissa * Nat.pow 2 (p.exponent - e).toNat with ha
  set r := a % (q.mantissa * Nat.pow 2 (q.exponent - e).toNat)
  have hd := scale_pos r one_pos (-e)
  have hd' : (0 : ℚ) < (scale r 1 (-e)).2 := by exact_mod_cast hd
  have ha' : (a : ℚ) * 2 ^ e = p.mantissa * 2 ^ p.exponent := by
    rw [ha, Nat.cast_mul, Nat.pow_eq, cast_two_pow, mul_assoc, ← zpow_add₀ two_ne_zero]
    congr 2
    omega
  have hlt : ((scale r 1 (-e)).1 : ℚ) / (scale r 1 (-e)).2 < overflow :=
    calc ((scale r 1 (-e)).1 : ℚ) / (scale r 1 (-e)).2 = r * 2 ^ e := by
          rw [scale_eq]
          simp
      _ ≤ a * 2 ^ e := by
          gcongr
          exact Nat.mod_le _ _
      _ < overflow := ha'.trans_lt (parts_lt_overflow hx)
  rw [div_lt_iff₀ hd'] at hlt
  exact exists_form_ofRatio _ hd (by exact_mod_cast hlt)

end Pseudocode.Binary64
