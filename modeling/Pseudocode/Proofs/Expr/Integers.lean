import Pseudocode.Proofs.Binary64.Addition
import Pseudocode.Proofs.Expr.Calls

/-!
# Integer expressions

Sums, differences, products, powers and magnitudes of integers are exact, whatever their size. The
remainder and the rounding to an integer go through the doubles: they take their operands for the
doubles that are nearest to them, and work exactly on these. The rules are stated once, in
`Expr.IntegerValue`, for any way to take the operands, and evaluation follows them
(`Expr.outcome_eval_integer`). The value is the exact one where the operands of the remainder and of
the rounding are doubles already, as all integers of at most 53 bits are, those of the rounding are
moreover even or below `2 ^ 52` in magnitude, and what is cut off to an integer is in the range of
the doubles.

The remainder of two doubles is a double (`Parts.exists_form_remainder_eq`): in units of the smaller
exponent it is below the mantissa of one of the two.
-/

namespace Pseudocode

namespace Binary64.Parts

variable {p q : Parts} {j k : Int}

/-- The remainder of whole multiples of a unit. -/
private theorem cast_mod_mul_zpow {a b m n : Nat} {e : Int} (hm : (a : ℚ) * 2 ^ e = m)
    (hn : (b : ℚ) * 2 ^ e = n) : ((a % b : Nat) : ℚ) * 2 ^ e = (m % n : Nat) := by
  rcases le_total 0 e with he | he
  · lift e to Nat using he with s
    rw [← cast_two_pow] at hm hn ⊢
    have hm' : a * 2 ^ s = m := by exact_mod_cast hm
    have hn' : b * 2 ^ s = n := by exact_mod_cast hn
    rw [← hm', ← hn', Nat.mul_mod_mul_right]
    exact_mod_cast rfl
  · obtain ⟨s, rfl⟩ : ∃ s : Nat, e = -s := ⟨(-e).toNat, by omega⟩
    have hne : ((2 ^ s : Nat) : ℚ) ≠ 0 := by positivity
    rw [zpow_neg, ← cast_two_pow, mul_inv_eq_iff_eq_mul₀ hne] at hm hn ⊢
    have hm' : a = m * 2 ^ s := by exact_mod_cast hm
    have hn' : b = n * 2 ^ s := by exact_mod_cast hn
    rw [hm', hn', Nat.mul_mod_mul_right]
    exact_mod_cast rfl

/-- A magnitude in units of an exponent that is not above its own. -/
private theorem mantissa_mul_pow_mul {e : Int} (he : e ≤ p.exponent) (hp : p.value = j) :
    ((p.mantissa * Nat.pow 2 (p.exponent - e).toNat : Nat) : ℚ) * 2 ^ e = j.natAbs := by
  rw [Nat.cast_natAbs, Int.cast_abs, ← hp, abs_value, Nat.cast_mul, Nat.pow_eq, cast_two_pow,
    mul_assoc, ← zpow_add₀ two_ne_zero]
  congr 2
  omega

private theorem negative_eq (hp : p.value = j) (hj : j ≠ 0) : p.negative = decide (j < 0) := by
  have hvalue := p.value_eq_abs
  have habs : 0 < |p.value| := by
    rw [abs_pos, hp]
    exact_mod_cast hj
  cases hneg : p.negative with
  | true =>
    rw [hneg, if_pos rfl] at hvalue
    have hlt : (j : ℚ) < 0 := by linarith
    exact (decide_eq_true (by exact_mod_cast hlt)).symm
  | false =>
    rw [hneg, if_neg Bool.false_ne_true] at hvalue
    have hlt : (0 : ℚ) < j := by linarith
    exact (decide_eq_false (not_lt.mpr (by exact_mod_cast hlt.le))).symm

private theorem tmod_eq_sign_mul (j k : Int) : j.tmod k = j.sign * (j.natAbs % k.natAbs : Nat) := by
  rw [← Int.natAbs_tmod]
  conv_lhs => rw [← Int.sign_mul_natAbs (j.tmod k), Int.sign_tmod]
  split
  · next h => rw [Int.tmod_eq_zero_of_dvd h, zero_mul, Int.natAbs_zero, Nat.cast_zero, mul_zero]
  · rfl

/-- **The remainder of whole doubles is exact.** -/
theorem exists_form_remainder_eq {x y : Float} (hx : form x = .finite p) (hy : form y = .finite q)
    (hp : p.value = j) (hq : q.value = k) (hk : k ≠ 0) :
    ∃ r, form (p.remainder q) = .finite r ∧ r.value = (j.tmod k : Int) := by
  obtain ⟨hpbits, hplow, hphigh⟩ := parts_bounds hx
  obtain ⟨hqbits, hqlow, hqhigh⟩ := parts_bounds hy
  have ha := mantissa_mul_pow_mul (min_le_left p.exponent q.exponent) hp
  have hb := mantissa_mul_pow_mul (min_le_right p.exponent q.exponent) hq
  rw [remainder]
  generalize he : min p.exponent q.exponent = e at *
  have hsmall : p.mantissa * Nat.pow 2 (p.exponent - e).toNat %
      (q.mantissa * Nat.pow 2 (q.exponent - e).toNat) < 2 * leadingBit := by
    -- the one with the lower exponent is not shifted: it is the dividend or bounds the remainder
    rcases le_total p.exponent q.exponent with hle | hle
    · have hshift : (p.exponent - e).toNat = 0 := by omega
      refine (Nat.mod_le _ _).trans_lt ?_
      rwa [hshift, Nat.pow_eq, pow_zero, mul_one]
    · have hshift : (q.exponent - e).toNat = 0 := by omega
      rw [hshift, Nat.pow_eq, Nat.pow_eq, pow_zero, mul_one]
      have hmantissa : q.mantissa ≠ 0 := by
        intro h
        rw [h, zero_mul, Nat.cast_zero, zero_mul] at hb
        exact hk (Int.natAbs_eq_zero.mp (by exact_mod_cast hb.symm))
      exact (Nat.mod_lt _ (Nat.pos_of_ne_zero hmantissa)).trans hqbits
  have hmod := cast_mod_mul_zpow ha hb
  generalize p.mantissa * Nat.pow 2 (p.exponent - e).toNat %
    (q.mantissa * Nat.pow 2 (q.exponent - e).toNat) = r at *
  have hratio : ((scale r 1 (-e)).1 : ℚ) / (scale r 1 (-e)).2 = r * 2 ^ e := by
    rw [scale_eq, zpow_neg]
    simp
  obtain ⟨m, u, hform, hm⟩ := exists_form_ofRatio_of_eq p.negative (scale_pos r one_pos (-e)) hsmall
    (by omega) (by omega) hratio
  rw [hratio, hmod] at hm
  -- a zero may have either sign, which then does not matter
  have hzero (hj : j = 0) : m = 0 := by
    rw [hj, Int.natAbs_zero, Nat.zero_mod, Nat.cast_zero,
      mul_eq_zero_iff_right (zpow_pos two_pos u).ne'] at hm
    exact_mod_cast hm
  have hsign : j ≠ 0 → p.negative = decide (j < 0) := negative_eq hp
  have hvalue : (Parts.mk p.negative m u).value = j.sign * ((m : ℚ) * 2 ^ u) :=
    value_eq_sign_mul hsign hzero
  refine ⟨_, hform, ?_⟩
  rw [hvalue, hm, tmod_eq_sign_mul, Int.cast_mul, Int.cast_natCast]

end Binary64.Parts

namespace Number

open Binary64

variable {m n j k : Int}

private theorem toReal_of_nearest (h : Nearest m j) :
    ∃ x p, (int m).toReal = .ok x ∧ form x = .finite p ∧ p.value = j := by
  obtain ⟨x, hx, hfraction⟩ := h.exists_ofInt?
  obtain ⟨p, hp, hvalue⟩ := fraction?_real_eq_some_iff.mp hfraction
  refine ⟨x, p, ?_, hp, hvalue⟩
  rw [toReal, hx]

/-- The remainder of integers is the remainder of the nearest doubles. -/
private theorem modulo_int (hm : Nearest m j) (hn : Nearest n k) (hne : n ≠ 0) :
    modulo (int m) (int n) = .ok (int (j.tmod k)) := by
  obtain ⟨x, p, hx, hp, hpvalue⟩ := toReal_of_nearest hm
  obtain ⟨y, q, hy, hq, hqvalue⟩ := toReal_of_nearest hn
  obtain ⟨r, hr, hrvalue⟩ := Parts.exists_form_remainder_eq hp hq hpvalue hqvalue (hn.ne_zero hne)
  have hzero : (int n).equals (int 0) = false := by
    rw [← Bool.not_eq_true, equals_int_iff, fraction?_int, Option.some.injEq]
    exact_mod_cast hne
  have hremainder : remainder x y = .ok (p.remainder q) := by rw [remainder, hp, hq]
  have htruncate : (real (p.remainder q)).truncate = .ok (j.tmod k) :=
    truncate_eq_of_fraction? (fraction?_real_eq_some_iff.mpr ⟨r, hr, hrvalue⟩)
  rw [modulo, hzero, if_neg Bool.false_ne_true, hx, hy]
  simp only [bind, Except.bind, hremainder, htruncate]
  rfl

private theorem power_int (m : Int) (n : Nat) : power (int m) (int n) = int (m ^ n) := by
  rw [power, if_pos (Int.natCast_nonneg n), Int.toNat_natCast, intPower_eq_pow]
  rfl

/-- An integer in the range of doubles is cut to itself. -/
private theorem cut_int (h : m.natAbs < overflow) : cut (int m) = .ok (int m) := by
  have hfinite : (int m).isFinite = .ok true := by
    refine isFinite_eq_ok_true_iff.mpr ⟨m, fraction?_int m, ?_⟩
    rw [← Int.cast_abs, ← Nat.cast_natAbs]
    exact_mod_cast h
  rw [cut, hfinite]
  rfl

private theorem isDouble_zero : IsDouble 0 := by
  have hform : form 0 = .finite ⟨false, 0, -1074⟩ := by decide
  refine ⟨0, fraction?_real_eq_some_iff.mpr ⟨_, hform, ?_⟩⟩
  simp [Parts.value]

/-- An integer is rounded to the nearest double. -/
private theorem round_int (h : Nearest m k) (heven : Even k ∨ k.natAbs < leadingBit) :
    round (int m) = .ok (int k) := by
  rcases eq_or_ne m 0 with rfl | hne
  · obtain rfl := h.unique isDouble_zero.nearest
    decide
  · obtain ⟨x, p, hx, hp, hvalue⟩ := toReal_of_nearest h
    obtain ⟨r, hr, hfloor⟩ := exists_floor_add_half hp hvalue (h.ne_zero hne) heven
    rw [round, hx]
    simp only [bind, Except.bind, hp, hr, hfloor]
    rfl

end Number

namespace Expr

open Binary64 Number

/-- The integer that an expression of integers stands for. An operand of the remainder or of the
rounding to an integer stands for an integer that it is taken for, which the rounding needs to be
even or below `2 ^ 52` in magnitude; an operand that is cut off to an integer is in the range of the
doubles. -/
inductive IntegerValue (store : Store) (taken : Int → Int → Prop) : Expr → Int → Prop where
  | literal (n : Int) : IntegerValue store taken (.number (.int n)) n
  | named {name : Text} {w : Variable} {n : Int} (hw : store.get? name = some w)
      (hn : w.value = .int n) : IntegerValue store taken (.variable name) n
  | keep {a : Expr} {m : Int} (ha : IntegerValue store taken a m) :
      IntegerValue store taken (.unary .keep a) m
  | negate {a : Expr} {m : Int} (ha : IntegerValue store taken a m) :
      IntegerValue store taken (.unary .negate a) (-m)
  | add {a b : Expr} {m n : Int} (ha : IntegerValue store taken a m)
      (hb : IntegerValue store taken b n) : IntegerValue store taken (.binary .add a b) (m + n)
  | subtract {a b : Expr} {m n : Int} (ha : IntegerValue store taken a m)
      (hb : IntegerValue store taken b n) : IntegerValue store taken (.binary .subtract a b) (m - n)
  | multiply {a b : Expr} {m n : Int} (ha : IntegerValue store taken a m)
      (hb : IntegerValue store taken b n) : IntegerValue store taken (.binary .multiply a b) (m * n)
  | power {a b : Expr} {m : Int} {n : Nat} (ha : IntegerValue store taken a m)
      (hb : IntegerValue store taken b n) : IntegerValue store taken (.binary .power a b) (m ^ n)
  | modulo {a b : Expr} {m n j k : Int} (ha : IntegerValue store taken a m)
      (hb : IntegerValue store taken b n) (hn : n ≠ 0) (hj : taken m j) (hk : taken n k) :
      IntegerValue store taken (.binary .modulo a b) (j.tmod k)
  | absolute {a : Expr} {m : Int} {name : Text}
      (hname : Builtin.ofName? name = some (.ofNumber .absolute))
      (ha : IntegerValue store taken a m) : IntegerValue store taken (.call name [a]) |m|
  | cut {a : Expr} {m : Int} {name : Text} (hname : Builtin.ofName? name = some (.ofNumber .cut))
      (ha : IntegerValue store taken a m) (hm : m.natAbs < overflow) :
      IntegerValue store taken (.call name [a]) m
  | round {a : Expr} {m k : Int} {name : Text}
      (hname : Builtin.ofName? name = some (.ofNumber .round))
      (ha : IntegerValue store taken a m) (hk : taken m k) (heven : Even k ∨ k.natAbs < 2 ^ 52) :
      IntegerValue store taken (.call name [a]) k

variable {store : Store} {scope : Scope} {p : Progress} {e a b : Expr} {m n k : Int}

/-- What the operands are taken for may be said in more ways. -/
private theorem IntegerValue.mono {taken more : Int → Int → Prop}
    (hmore : ∀ m k, taken m k → more m k)
    (h : IntegerValue store taken e n) : IntegerValue store more e n := by
  induction h with
  | literal n => exact .literal n
  | named hw hn => exact .named hw hn
  | keep _ ih => exact .keep ih
  | negate _ ih => exact .negate ih
  | add _ _ iha ihb => exact .add iha ihb
  | subtract _ _ iha ihb => exact .subtract iha ihb
  | multiply _ _ iha ihb => exact .multiply iha ihb
  | power _ _ iha ihb => exact .power iha ihb
  | modulo _ _ hn hj hk iha ihb => exact .modulo iha ihb hn (hmore _ _ hj) (hmore _ _ hk)
  | absolute hname _ ih => exact .absolute hname ih
  | cut hname _ hm ih => exact .cut hname ih hm
  | round hname _ hk heven ih => exact .round hname ih (hmore _ _ hk) heven

private theorem outcome_eval_unary {op : UnaryOp} (ha : a.eval.outcome scope p = (.ok (.int m), p))
    (hop : op.apply (.int m) = .ok (.int k)) :
    (unary op a).eval.outcome scope p = (.ok (.int k), p) := by
  rw [eval, Eval.outcome_bind_ok ha, Eval.outcome_ofExcept, hop]

private theorem outcome_eval_binary {op : BinaryOp}
    (ha : a.eval.outcome scope p = (.ok (.int m), p))
    (hb : b.eval.outcome scope p = (.ok (.int n), p))
    (hop : op.apply (.int m) (.int n) = .ok (.int k)) :
    (binary op a b).eval.outcome scope p = (.ok (.int k), p) := by
  rw [eval, Eval.outcome_bind_ok ha, Eval.outcome_bind_ok hb, Eval.outcome_ofExcept, hop]

private theorem outcome_eval_call {f : NumberFunction} {name : Text}
    (hname : Builtin.ofName? name = some (.ofNumber f))
    (ha : a.eval.outcome scope p = (.ok (.int m), p)) (hf : f.apply (.int m) = .ok (.int k)) :
    (call name [a]).eval.outcome scope p = (.ok (.int k), p) := by
  have hall : (evalAll [a]).outcome scope p = (.ok [.int m], p) := by
    rw [evalAll, Eval.outcome_bind_ok ha]
    rfl
  rw [eval, hname]
  change (evalAll [a] >>= (Builtin.ofNumber f).apply name).outcome scope p = _
  rw [Eval.outcome_bind_ok hall]
  change (Eval.ofExcept (f.apply (.int m)) >>= fun n => pure (Value.number n)).outcome scope p = _
  rw [hf]
  rfl

/-- An expression evaluates to the integer that it stands for. -/
private theorem IntegerValue.outcome_eval (h : IntegerValue scope.store Nearest e n) :
    e.eval.outcome scope p = (.ok (.int n), p) := by
  induction h with
  | literal n => rfl
  | named hw hn =>
    rw [eval, Eval.outcome_read_bind, Store.lookup_eq_ok_iff.mpr hw, ← hn]
    rfl
  | keep _ ih => exact outcome_eval_unary ih rfl
  | negate _ ih => exact outcome_eval_unary ih rfl
  | add _ _ iha ihb => exact outcome_eval_binary iha ihb rfl
  | subtract _ _ iha ihb => exact outcome_eval_binary iha ihb rfl
  | multiply _ _ iha ihb => exact outcome_eval_binary iha ihb rfl
  | @power _ _ m n _ _ iha ihb =>
    refine outcome_eval_binary iha ihb ?_
    change Except.ok (Value.number (Number.power (.int m) (.int n))) = _
    rw [power_int]
  | @modulo _ _ m n j k _ _ hn hj hk iha ihb =>
    refine outcome_eval_binary iha ihb ?_
    change (Number.modulo (.int m) (.int n) >>= fun r => pure (Value.number r)) = _
    rw [modulo_int hj hk hn]
    rfl
  | @absolute _ m _ hname _ ih =>
    rw [Int.abs_eq_natAbs]
    exact outcome_eval_call hname ih rfl
  | cut hname _ hm ih => exact outcome_eval_call hname ih (cut_int hm)
  | round hname _ hk heven ih => exact outcome_eval_call hname ih (round_int hk heven)

/-- **Integer expressions evaluate to their integer values.** The remainder and the rounding to an
integer are those of the doubles nearest to their operands. The value is the exact one where these
operands are doubles themselves, each double that is rounded is even or below `2 ^ 52` in magnitude,
and each integer that is cut off is in the range of the doubles. Nothing is drawn and nothing is
reported. -/
theorem outcome_eval_integer (scope : Scope) (p : Progress) (e : Expr) (n : Int) :
    (IntegerValue scope.store Nearest e n → e.eval.outcome scope p = (.ok (.int n), p)) ∧
      (IntegerValue scope.store (fun m k => IsDouble m ∧ k = m) e n →
        e.eval.outcome scope p = (.ok (.int n), p)) := by
  refine ⟨IntegerValue.outcome_eval, fun h => IntegerValue.outcome_eval (h.mono ?_)⟩
  rintro m _ ⟨hm, rfl⟩
  exact hm.nearest

/-- A remainder, a product with a power and a magnitude, put together. -/
def mixedTree (dividend : Expr) : Expr :=
  .binary .subtract
    (.binary .add (.binary .modulo (.unary .negate dividend) (.number (.int 10)))
      (.binary .multiply (.call "redon".toList [.number (.int 7)])
        (.binary .power (.number (.int 2)) (.unary .keep (.number (.int 3))))))
    (.call "abs".toList [.call "trunc".toList [.unary .negate (.number (.int 4))]])

private theorem integerValue_mixedTree {taken : Int → Int → Prop} {j : Int}
    (ha : IntegerValue store taken a m) (hj : taken (-m) j) (hten : taken 10 10)
    (hseven : taken 7 7) : IntegerValue store taken (mixedTree a) (j.tmod 10 + 52) := by
  have hmodulo := IntegerValue.modulo (.negate ha) (.literal 10) (by decide) hj hten
  have hround : IntegerValue store taken (.call "redon".toList [.number (.int 7)]) 7 :=
    .round (by decide) (.literal 7) hseven (.inr (by decide))
  have hpower : IntegerValue store taken
      (.binary .power (.number (.int 2)) (.unary .keep (.number (.int 3)))) (2 ^ 3) :=
    .power (.literal 2) (.keep (.literal 3))
  have hfour : (-4 : Int).natAbs < overflow := (show Nearest (-4) (-4) by decide).inRange
  have habsolute : IntegerValue store taken
      (.call "abs".toList [.call "trunc".toList [.unary .negate (.number (.int 4))]])
      |(-4 : Int)| :=
    .absolute (by decide) (.cut (by decide) (.negate (.literal 4)) hfour)
  have hvalue : j.tmod 10 + 7 * 2 ^ 3 - |(-4 : Int)| = j.tmod 10 + 52 := by
    rw [abs_neg, abs_of_pos four_pos]
    ring
  exact hvalue ▸ .subtract (.add hmodulo (.multiply hround hpower)) habsolute

/-- A store with one variable, an integer of 54 bits. -/
def wideStore : Store := ⟨[⟨"n".toList, .integer, .int 9007199254740993⟩]⟩

/-- All the operators in one tree, around an integer of 54 bits and around a small one. -/
theorem outcome_eval_integer_mixedTree :
    (IntegerValue wideStore Nearest (mixedTree (.variable "n".toList)) 50 ∧
        (mixedTree (.variable "n".toList)).eval.outcome ⟨wideStore, fun _ => 0, false⟩ ⟨0, #[]⟩ =
          (.ok (.int 50), ⟨0, #[]⟩)) ∧
      IntegerValue wideStore (fun m k => IsDouble m ∧ k = m) (mixedTree (.number (.int 17))) 45 ∧
        (mixedTree (.number (.int 17))).eval.outcome ⟨wideStore, fun _ => 0, false⟩ ⟨0, #[]⟩ =
          (.ok (.int 45), ⟨0, #[]⟩) := by
  have hten : Nearest 10 10 := by decide
  have hseven : Nearest 7 7 := by decide
  have hwide : Nearest (-9007199254740993) (-9007199254740992) := by decide
  have hsmall : Nearest (-17) (-17) := by decide
  have hrounded : IntegerValue wideStore Nearest (mixedTree (.variable "n".toList)) 50 :=
    integerValue_mixedTree (.named rfl rfl) hwide hten hseven
  have hexact : IntegerValue wideStore (fun m k => IsDouble m ∧ k = m)
      (mixedTree (.number (.int 17))) 45 :=
    integerValue_mixedTree (j := -17) (.literal 17) ⟨hsmall.isDouble, rfl⟩ ⟨hten.isDouble, rfl⟩
      ⟨hseven.isDouble, rfl⟩
  exact ⟨⟨hrounded, (outcome_eval_integer _ _ _ _).1 hrounded⟩, hexact,
    (outcome_eval_integer _ _ _ _).2 hexact⟩

/-- **The remainder of integers that are no doubles is not exact.** -/
theorem outcome_eval_modulo_wide :
    ((Eval.expression "9007199254740993 mod 10".toList).outcome ⟨.empty, fun _ => 0, false⟩
        ⟨0, #[]⟩).1 = .ok (.int 2) ∧ (9007199254740993 : Int).tmod 10 = 3 := by
  decide +kernel

end Expr

end Pseudocode
