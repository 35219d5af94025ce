import Mathlib.Data.List.TakeWhile
import Pseudocode.Numeral

/-!
# What numerals denote

The numerals of expressions by their form, apart from how they are read. A row of decimal digits
denotes an integer, if it is not too long. Digits with a point among them or around them, or with a
power of ten behind them, denote the double nearest to the decimal that they write. **A text is read
as a number exactly if it is a numeral that denotes the number** (`Numeral.ofToken?_eq_some_iff`).

The reader takes each part for as long as its characters last. The parts can be told apart by their
first characters, so that it finds those that a numeral was put together from.
-/

namespace Pseudocode

namespace Decimal

open Text (isDecimal)

/-- A sign that may be missing, and whether it is a minus. -/
inductive Signed : Text → Bool → Prop where
  | absent : Signed [] false
  | plus : Signed ['+'] false
  | minus : Signed ['-'] true

/-- The power of ten that may stand at the end of a numeral: a letter, a sign that may be missing,
and digits. -/
inductive Power : Text → Int → Prop where
  | absent : Power [] 0
  | given {e : Char} {s digits : Text} {negative : Bool} : e ∈ ['e', 'E'] → Signed s negative →
      digits ≠ [] → (∀ c ∈ digits, isDecimal c = true) →
      Power (e :: (s ++ digits))
        (if negative then -(readDigits digits : Int) else readDigits digits)

/-- Digits with at most one point and at least one digit, and those on either side of the point. -/
inductive Mantissa : Text → Text → Text → Prop where
  | plain {digits : Text} : digits ≠ [] → (∀ c ∈ digits, isDecimal c = true) →
      Mantissa digits digits []
  | pointed {whole fraction : Text} : whole ++ fraction ≠ [] → (∀ c ∈ whole, isDecimal c = true) →
      (∀ c ∈ fraction, isDecimal c = true) → Mantissa (whole ++ '.' :: fraction) whole fraction

/-! ### Powers of ten -/

variable {t m whole fraction power rest : Text} {e : Int} {negative : Bool}

private theorem isDecimal_sign {c : Char} (h : c ∈ ['+', '-', '.', 'e', 'E']) :
    isDecimal c = false := by
  simp only [List.mem_cons, List.not_mem_nil, or_false] at h
  rcases h with rfl | rfl | rfl | rfl | rfl <;> decide

/-- A digit is none of the signs that stand in numerals. -/
private theorem ne_of_isDecimal {d k : Char} (hd : isDecimal d = true)
    (hk : k ∈ ['+', '-', '.', 'e', 'E']) : d ≠ k := by
  rintro rfl
  rw [isDecimal_sign hk] at hd
  cases hd

/-- The sign at the start of a text is a minus, or else a plus or missing. -/
theorem sign_eq_signText (t : Text) :
    sign t = (decide ((signText t).1 = ['-']), (signText t).2) := by
  unfold sign signText
  split <;> simp

section Signs

variable {s digits : Text} (hs : Signed s negative) (hne : digits ≠ [])
  (hdigits : ∀ c ∈ digits, isDecimal c = true) (rest : Text)

include hs hne hdigits

/-- A sign before digits is taken off. -/
theorem Signed.signText_eq : signText (s ++ (digits ++ rest)) = (s, digits ++ rest) := by
  cases hs with
  | absent =>
    obtain ⟨d, digits, rfl⟩ := List.exists_cons_of_ne_nil hne
    have hplus : d ≠ '+' := ne_of_isDecimal (hdigits d List.mem_cons_self) (by simp)
    have hminus : d ≠ '-' := ne_of_isDecimal (hdigits d List.mem_cons_self) (by simp)
    simp [signText, hplus, hminus]
  | plus => rfl
  | minus => rfl

/-- The sign in front of digits is read. -/
theorem Signed.sign_eq : sign (s ++ (digits ++ rest)) = (negative, digits ++ rest) := by
  rw [sign_eq_signText, hs.signText_eq hne hdigits]
  cases hs <;> rfl

end Signs

/-- What is taken for a sign is one. -/
theorem signed_signText (t : Text) : Signed (signText t).1 (sign t).1 := by
  unfold sign signText
  split
  · exact .plus
  · exact .minus
  · exact .absent

/-- A run of characters of a class ends before a character that is not in it. -/
theorem span_append {p : Char → Bool} {run : Text} (h : ∀ c ∈ run, p c = true)
    (hrest : ∀ c ∈ rest.head?, p c = false) :
    (run ++ rest).takeWhile p = run ∧ (run ++ rest).dropWhile p = rest := by
  rw [List.takeWhile_append_of_pos h, List.dropWhile_append_of_pos h]
  cases rest with
  | nil => exact ⟨List.append_nil _, rfl⟩
  | cons c rest =>
    have hc : ¬ p c = true := by rw [hrest c rfl]; exact Bool.false_ne_true
    rw [List.takeWhile_cons_of_neg hc, List.dropWhile_cons_of_neg hc]
    exact ⟨List.append_nil _, rfl⟩

private theorem Power.exponentPart_eq (h : Power power e) (hne : power ≠ []) :
    exponentPart power = some (e, []) := by
  cases h with
  | absent => exact absurd rfl hne
  | @given k s digits negative hk hs hdigits hdecimal =>
    have hsign := hs.sign_eq hdigits hdecimal []
    rw [List.append_nil] at hsign
    have htake : digits.takeWhile isDecimal = digits := List.takeWhile_eq_self_iff.mpr hdecimal
    have hdrop : digits.dropWhile isDecimal = [] := List.dropWhile_eq_nil_iff.mpr hdecimal
    have hk' : k = 'e' ∨ k = 'E' := by simpa using hk
    rw [exponentPart, hsign]
    simp only [htake, hdrop]
    rw [if_pos ⟨hk', hdigits⟩]

/-- What is read as a power of ten is one. -/
theorem exists_power_of_exponentPart (h : exponentPart t = some (e, rest)) :
    ∃ power, Power power e ∧ t = power ++ rest := by
  cases t with
  | nil => cases h
  | cons k t =>
    have ht : t = (signText t).1 ++ (sign t).2 := by
      rw [sign_eq_signText, signText_append]
    simp only [exponentPart] at h
    split at h
    · next hpower =>
      obtain ⟨hk, hne⟩ := hpower
      obtain ⟨rfl, rfl⟩ := Prod.mk.inj (Option.some.inj h)
      refine ⟨_, .given (by simpa using hk) (signed_signText t) hne
        fun _ => List.mem_takeWhile_imp, ?_⟩
      rw [List.cons_append, List.append_assoc, List.takeWhile_append_dropWhile, ← ht]
    · cases h

/-- A power of ten starts with neither a digit nor a point. -/
theorem Power.head (h : Power power e) : ∀ c ∈ power.head?, c ∈ ['e', 'E'] := by
  cases h with
  | absent =>
    intro c hc
    cases hc
  | given hk _ _ _ =>
    rintro c ⟨⟩
    exact hk

/-! ### Digits and a point -/

/-- A mantissa is read as far as it goes, up to the letter of a power of ten. -/
theorem Mantissa.mantissaPart_append (h : Mantissa m whole fraction)
    (hrest : ∀ c ∈ rest.head?, c ∈ ['e', 'E']) :
    mantissaPart (m ++ rest) = some (whole, fraction, rest) := by
  have hend : ∀ c ∈ rest.head?, isDecimal c = false :=
    fun c hc => isDecimal_sign (List.mem_append_right ['+', '-', '.'] (hrest c hc))
  cases h with
  | plain hne hdigits =>
    obtain ⟨htake, hdrop⟩ := span_append hdigits hend
    have hpoint (tail : Text) : rest ≠ '.' :: tail := by
      rintro rfl
      exact absurd (hrest '.' rfl) (by decide)
    simp only [mantissaPart, htake, hdrop]
    rw [if_neg (mt List.isEmpty_iff.mp hne)]
  | pointed hne hwhole hfraction =>
    have hpoint : ∀ c ∈ ('.' :: (fraction ++ rest)).head?, isDecimal c = false := by
      rintro c ⟨⟩
      decide
    obtain ⟨htake, hdrop⟩ := span_append hwhole hpoint
    obtain ⟨htake', hdrop'⟩ := span_append hfraction hend
    have hempty : ¬ (whole.isEmpty && fraction.isEmpty) = true := by
      intro hboth
      obtain ⟨hw, hf⟩ := (Bool.and_eq_true _ _).mp hboth
      exact hne (List.append_eq_nil_iff.mpr ⟨List.isEmpty_iff.mp hw, List.isEmpty_iff.mp hf⟩)
    rw [List.append_assoc, List.cons_append]
    simp only [mantissaPart, htake, hdrop, htake', hdrop']
    rw [if_neg hempty]

private theorem exists_mantissa_of_mantissaPart
    (h : mantissaPart t = some (whole, fraction, rest)) :
    ∃ m, Mantissa m whole fraction ∧ t = m ++ rest := by
  have happend := List.takeWhile_append_dropWhile (p := isDecimal) (l := t)
  have hwhole : ∀ c ∈ t.takeWhile isDecimal, isDecimal c = true := fun _ => List.mem_takeWhile_imp
  simp only [mantissaPart] at h
  split at h
  · next tail htail =>
    split at h
    · cases h
    · next hempty =>
      simp only [Option.some.injEq, Prod.mk.injEq] at h
      obtain ⟨rfl, rfl, rfl⟩ := h
      refine ⟨_, .pointed ?_ hwhole fun _ => List.mem_takeWhile_imp, ?_⟩
      · intro hnil
        obtain ⟨hw, hf⟩ := List.append_eq_nil_iff.mp hnil
        exact hempty (by rw [hw, hf]; rfl)
      · rw [List.append_assoc, List.cons_append, List.takeWhile_append_dropWhile, ← htail, happend]
  · split at h
    · cases h
    · next hempty =>
      simp only [Option.some.injEq, Prod.mk.injEq] at h
      obtain ⟨rfl, rfl, rfl⟩ := h
      exact ⟨_, .plain (mt List.isEmpty_iff.mpr hempty) hwhole, happend.symm⟩

end Decimal

/-! ### Numerals -/

namespace Numeral

open Decimal
open Text (isDecimal)

/-- A text is a numeral and denotes a number. -/
inductive Denotes : Text → Number → Prop where
  | integer {t : Text} : t ≠ [] → (∀ c ∈ t, isDecimal c = true) → t.length ≤ Number.maxDigits →
      Denotes t (.int (readDigits t))
  | real {m whole fraction power : Text} {e : Int} : Mantissa m whole fraction → Power power e →
      ('.' ∈ m ∨ power ≠ []) →
      Denotes (m ++ power)
        (.real (toReal false (readDigits (whole ++ fraction)) (e - fraction.length)))

variable {t : Text} {n : Number}

/-- What makes a numeral one of a real number. -/
def isRealSign (c : Char) : Bool := c == '.' || c == 'e' || c == 'E'

private theorem any_isRealSign_of_decimal (h : ∀ c ∈ t, isDecimal c = true) :
    t.any isRealSign = false := by
  refine List.any_eq_false.mpr fun c hc hsign => ?_
  have hmem : c ∈ ['+', '-', '.', 'e', 'E'] := by
    simp only [isRealSign, Bool.or_eq_true, beq_iff_eq] at hsign
    rcases hsign with (rfl | rfl) | rfl <;> simp
  have hdecimal := h c hc
  rw [isDecimal_sign hmem] at hdecimal
  cases hdecimal

private theorem any_isRealSign_of_real {m power : Text} {e : Int} (hpower : Power power e)
    (h : '.' ∈ m ∨ power ≠ []) : (m ++ power).any isRealSign = true := by
  rcases h with hpoint | hne
  · exact List.any_eq_true.mpr ⟨'.', List.mem_append_left _ hpoint, rfl⟩
  · obtain ⟨c, power, rfl⟩ := List.exists_cons_of_ne_nil hne
    refine List.any_eq_true.mpr ⟨c, List.mem_append_right _ List.mem_cons_self, ?_⟩
    have hc : c = 'e' ∨ c = 'E' := by simpa using hpower.head c rfl
    rcases hc with rfl | rfl <;> rfl

private theorem unsignedPart_append {m whole fraction power : Text} {e : Int}
    (hm : Mantissa m whole fraction) (hpower : Power power e) :
    unsignedPart (m ++ power) =
      some (⟨readDigits (whole ++ fraction), e - fraction.length⟩, []) := by
  rw [unsignedPart, hm.mantissaPart_append hpower.head]
  by_cases hne : power = []
  · subst hne
    cases hpower
    rw [Int.zero_sub]
    rfl
  · simp only [hpower.exponentPart_eq hne]

/-- What is read as a number is a mantissa and a power of ten, and its value is theirs. -/
theorem exists_of_unsignedPart {decimal : Unsigned} {rest : Text}
    (h : unsignedPart t = some (decimal, rest)) :
    ∃ m whole fraction power e, Mantissa m whole fraction ∧ Power power e ∧
      t = m ++ (power ++ rest) ∧
      decimal = ⟨readDigits (whole ++ fraction), e - fraction.length⟩ := by
  rw [unsignedPart] at h
  split at h
  · cases h
  · next whole fraction tail hmantissa =>
    obtain ⟨m, hm, ht⟩ := exists_mantissa_of_mantissaPart hmantissa
    split at h
    · obtain ⟨rfl, rfl⟩ := Prod.mk.inj (Option.some.inj h)
      exact ⟨m, whole, fraction, [], 0, hm, .absent, ht, by rw [Int.zero_sub]⟩
    · next e _ hexponent =>
      obtain ⟨rfl, rfl⟩ := Prod.mk.inj (Option.some.inj h)
      obtain ⟨power, hpower, rfl⟩ := exists_power_of_exponentPart hexponent
      exact ⟨m, whole, fraction, power, e, hm, hpower, ht, rfl⟩

/-- **Which texts are read as which numbers.** -/
theorem ofToken?_eq_some_iff : ofToken? t = some n ↔ Denotes t n := by
  rw [ofToken?, show (t.any fun c => c == '.' || c == 'e' || c == 'E') = t.any isRealSign from rfl]
  constructor
  · intro h
    split at h
    · next hsign =>
      split at h
      · next decimal hunsigned =>
        obtain rfl := Option.some.inj h
        obtain ⟨m, whole, fraction, power, e, hm, hpower, ht, rfl⟩ :=
          exists_of_unsignedPart hunsigned
        rw [List.append_nil] at ht
        subst ht
        refine .real hm hpower ?_
        -- without a point and a power there are only digits
        by_contra hnone
        obtain ⟨hpoint, hne⟩ := not_or.mp hnone
        obtain rfl := not_not.mp hne
        cases hm with
        | plain _ hdigits =>
          rw [List.append_nil, any_isRealSign_of_decimal hdigits] at hsign
          cases hsign
        | pointed _ _ _ => exact hpoint (List.mem_append_right _ List.mem_cons_self)
      · cases h
    · split at h
      · cases h
      · next hplain =>
        obtain rfl := Option.some.inj h
        simp only [Bool.or_eq_true, Bool.not_eq_true', decide_eq_true_eq, not_or,
          Bool.not_eq_false] at hplain
        obtain ⟨⟨hne, hdigits⟩, hlength⟩ := hplain
        exact .integer (mt List.isEmpty_iff.mpr hne) (List.all_eq_true.mp hdigits)
          (Nat.not_lt.mp hlength)
  · intro h
    cases h with
    | integer hne hdigits hlength =>
      rw [any_isRealSign_of_decimal hdigits, if_neg Bool.false_ne_true, if_neg]
      simp [hne, List.all_eq_true.mpr hdigits, hlength]
    | real hm hpower hsign =>
      rw [if_pos (any_isRealSign_of_real hpower hsign), unsignedPart_append hm hpower]

end Numeral

end Pseudocode
