import Pseudocode.Proofs.Numeral.Grammar
import Pseudocode.Proofs.Text.Keyword

/-!
# The number at the start of a text

A numeral may have white space and a sign before it (`Numeral.Spaced`). Of the numerals at the start
of a text, the longest is the one that counts (`Numeral.Foremost`).

Two readers of numerals follow each other here. The first finds the numeral and takes any white
space for white space. The second converts what was found to a double, and to it the separators
`0x1C` to `0x1F` are no white space. So there are three outcomes (`Numeral.leading_cases`): there is
no numeral; there is one and it is converted; or there is one, but **it is refused, exactly if one
of the separators stands before it**.

The reader takes each part of a numeral for as long as its characters last. No numeral is longer
than what it finds, because what follows a part of another numeral at the same place is either still
a character of this part or the start of the next one.
-/

namespace Pseudocode

namespace Decimal

open Text (isBlank isDecimal)

variable {m whole fraction power s : Text} {e : Int} {negative : Bool}

/-! ### Each part is as long as it can be -/

/-- Digits and a point behind which more follows are read at least as far as they go. -/
private theorem Mantissa.exists_mantissaPart_append (h : Mantissa m whole fraction) (rest : Text) :
    ∃ w f tail, mantissaPart (m ++ rest) = some (w, f, tail) ∧ tail.length ≤ rest.length := by
  have hdrop (u : Text) : (u.dropWhile isDecimal).length ≤ u.length :=
    (List.dropWhile_sublist _).length_le
  cases h with
  | plain hne hdigits =>
    have hwhole : ¬ (m ++ rest.takeWhile isDecimal).isEmpty = true := by simp [hne]
    simp only [mantissaPart, List.takeWhile_append_of_pos hdigits,
      List.dropWhile_append_of_pos hdigits]
    split
    · next tail htail =>
      rw [if_neg (by simp [hne])]
      have hle := hdrop rest
      rw [htail, List.length_cons] at hle
      exact ⟨_, _, _, rfl, by have := hdrop tail; omega⟩
    · rw [if_neg hwhole]
      exact ⟨_, _, _, rfl, hdrop rest⟩
  | pointed hne hwhole hfraction =>
    have hpoint : ∀ c ∈ ('.' :: (fraction ++ rest)).head?, isDecimal c = false := by
      rintro c ⟨⟩
      decide
    obtain ⟨htake, hpart⟩ := span_append hwhole hpoint
    rw [List.append_assoc, List.cons_append]
    simp only [mantissaPart, htake, hpart, List.takeWhile_append_of_pos hfraction,
      List.dropWhile_append_of_pos hfraction]
    have hempty : ¬ (whole.isEmpty && (fraction ++ rest.takeWhile isDecimal).isEmpty) = true := by
      simp only [Bool.and_eq_true, List.isEmpty_iff, List.append_eq_nil_iff]
      rintro ⟨rfl, rfl, -⟩
      exact hne rfl
    rw [if_neg hempty]
    exact ⟨_, _, _, rfl, hdrop rest⟩

private theorem Power.exists_exponentPart_append (h : Power power e) (hne : power ≠ [])
    (rest : Text) :
    ∃ k tail, exponentPart (power ++ rest) = some (k, tail) ∧ tail.length ≤ rest.length := by
  cases h with
  | absent => exact absurd rfl hne
  | @given k s digits negative hk hs hdigits hdecimal =>
    have hk' : k = 'e' ∨ k = 'E' := by simpa using hk
    have hpower : digits ++ rest.takeWhile isDecimal ≠ [] :=
      List.append_ne_nil_of_left_ne_nil hdigits _
    simp only [List.cons_append, List.append_assoc, exponentPart,
      hs.sign_eq hdigits hdecimal rest, List.takeWhile_append_of_pos hdecimal,
      List.dropWhile_append_of_pos hdecimal]
    rw [if_pos ⟨hk', hpower⟩]
    exact ⟨_, _, rfl, (List.dropWhile_sublist _).length_le⟩

/-- **A decimal behind which more follows** is read at least as far as it goes. -/
theorem exists_unsignedPart_append (hm : Mantissa m whole fraction) (hpower : Power power e)
    (rest : Text) : ∃ decimal tail, unsignedPart (m ++ (power ++ rest)) = some (decimal, tail) ∧
      tail.length ≤ rest.length := by
  by_cases hne : power = []
  · subst hne
    obtain ⟨w, f, tail, hmantissa, hle⟩ := hm.exists_mantissaPart_append rest
    rw [List.nil_append, unsignedPart, hmantissa]
    -- a power may follow, though none was asked for
    cases hexponent : exponentPart tail with
    | none =>
      simp only [hexponent]
      exact ⟨_, tail, rfl, hle⟩
    | some found =>
      obtain ⟨k, tail'⟩ := found
      have htail : tail'.length ≤ tail.length := by
        obtain ⟨more, -, rfl⟩ := exists_power_of_exponentPart hexponent
        rw [List.length_append]
        omega
      simp only [hexponent]
      exact ⟨_, tail', rfl, Nat.le_trans htail hle⟩
  · have hhead : ∀ c ∈ (power ++ rest).head?, c ∈ ['e', 'E'] := by
      obtain ⟨k, power, rfl⟩ := List.exists_cons_of_ne_nil hne
      rintro c ⟨⟩
      exact hpower.head k rfl
    obtain ⟨k, tail, hexponent, hle⟩ := hpower.exists_exponentPart_append hne rest
    rw [unsignedPart, hm.mantissaPart_append hhead]
    simp only [hexponent]
    exact ⟨_, _, rfl, hle⟩

/-! ### The start of a numeral -/

/-- A numeral without a sign starts with a digit or a point. -/
private theorem Mantissa.head (h : Mantissa m whole fraction) (rest : Text) :
    ∀ c ∈ (m ++ rest).head?, isDecimal c = true ∨ c = '.' := by
  cases h with
  | plain hne hdigits =>
    obtain ⟨d, m, rfl⟩ := List.exists_cons_of_ne_nil hne
    rintro c ⟨⟩
    exact .inl (hdigits d List.mem_cons_self)
  | pointed hne hwhole hfraction =>
    cases whole with
    | nil =>
      rintro c ⟨⟩
      exact .inr rfl
    | cons d whole =>
      rintro c ⟨⟩
      exact .inl (hwhole d List.mem_cons_self)

private theorem Signed.sign_append (hs : Signed s negative) (hm : Mantissa m whole fraction)
    (rest : Text) :
    sign (s ++ (m ++ rest)) = (negative, m ++ rest) := by
  cases hs with
  | absent =>
    have hhead := hm.head rest
    rw [List.nil_append, sign]
    all_goals
      intro more hmore
      rw [hmore] at hhead
      exact absurd (hhead _ rfl) (by decide)
  | plus => rfl
  | minus => rfl

private theorem isBlank_eq_false_of_isDecimal {c : Char} (h : isDecimal c = true) :
    isBlank c = false :=
  Text.isBlank_eq_false_of_isWordChar (by simp [Text.isWordChar, Text.isNumeral, Text.isDigit, h])

private theorem Signed.head_not_isBlank (hs : Signed s negative) (hm : Mantissa m whole fraction)
    (rest : Text) : ∀ c ∈ (s ++ (m ++ rest)).head?, isBlank c = false := by
  cases hs with
  | absent =>
    intro c hc
    rcases hm.head rest c hc with hdecimal | rfl
    · exact isBlank_eq_false_of_isDecimal hdecimal
    · decide
  | plus | minus =>
    rintro c ⟨⟩
    decide

end Decimal

/-! ### Numerals behind white space -/

namespace Numeral

open Decimal
open Text (isBlank isNumeralBlank)

/-- A numeral, perhaps with a sign, behind white space of a kind, and the double that is nearest to
the decimal that it writes. -/
inductive Spaced (blank : Char → Bool) : Text → Float → Prop where
  | intro {bl s m whole fraction power : Text} {negative : Bool} {e : Int} :
      (∀ c ∈ bl, blank c = true) → Signed s negative → Mantissa m whole fraction →
      Power power e → Spaced blank (bl ++ (s ++ (m ++ power)))
        (toReal negative (readDigits (whole ++ fraction)) (e - fraction.length))

/-- The longest numeral at the start of a text, behind any white space, and the double that it
denotes. -/
structure Foremost (t p : Text) (x : Float) : Prop where
  front : p <+: t
  numeral : Spaced isBlank p x
  longest : ∀ q y, q <+: t → Spaced isBlank q y → q.length ≤ p.length

/-- One of the separators that are no white space before a real number is among the white space at
the start of the text. -/
def Separated (t : Text) : Prop := ∃ c ∈ t.takeWhile isBlank, 0x1C ≤ c.toNat ∧ c.toNat ≤ 0x1F

variable {t p rest : Text} {x : Float}

/-- A separator is in front exactly if not all white space in front is white space before a real
number. -/
theorem separated_iff : Separated t ↔ ¬ (t.takeWhile isBlank).all isNumeralBlank = true := by
  rw [List.all_eq_true, Separated]
  constructor
  · rintro ⟨c, hc, hlow, hhigh⟩ hall
    have hnumeral := hall c hc
    simp [isNumeralBlank, hlow, hhigh] at hnumeral
  · intro hall
    simp only [not_forall] at hall
    obtain ⟨c, hc, hnumeral⟩ := hall
    refine ⟨c, hc, ?_⟩
    have hblank : isBlank c = true := List.mem_takeWhile_imp hc
    simpa [isNumeralBlank, hblank] using hnumeral

/-- What is read as a number at the very start of a text is a numeral, and the rest follows it. -/
private theorem exists_of_signed? (h : signed? t = some (x, rest)) :
    ∃ s m whole fraction power negative e, Signed s negative ∧ Mantissa m whole fraction ∧
      Power power e ∧ t = s ++ (m ++ power) ++ rest ∧
      x = toReal negative (readDigits (whole ++ fraction)) (e - fraction.length) := by
  have ht : t = (signText t).1 ++ (sign t).2 := by rw [sign_eq_signText, signText_append]
  simp only [signed?] at h
  split at h
  · cases h
  · next decimal tail hunsigned =>
    obtain ⟨rfl, rfl⟩ := Prod.mk.inj (Option.some.inj h)
    obtain ⟨m, whole, fraction, power, e, hm, hpower, hbody, rfl⟩ :=
      exists_of_unsignedPart hunsigned
    refine ⟨_, m, whole, fraction, power, _, e, signed_signText t, hm, hpower, ?_, rfl⟩
    rw [List.append_assoc, List.append_assoc, ← hbody, ← ht]

/-- The white space before a numeral ends where the numeral starts. -/
private theorem span_isBlank {bl s m whole fraction : Text} {negative : Bool}
    (hbl : ∀ c ∈ bl, isBlank c = true) (hs : Signed s negative) (hm : Mantissa m whole fraction)
    (power rest : Text) :
    (bl ++ (s ++ (m ++ power)) ++ rest).takeWhile isBlank = bl ∧
      (bl ++ (s ++ (m ++ power)) ++ rest).dropWhile isBlank = s ++ (m ++ (power ++ rest)) := by
  have htext : bl ++ (s ++ (m ++ power)) ++ rest = bl ++ (s ++ (m ++ (power ++ rest))) := by
    simp only [List.append_assoc]
  rw [htext]
  exact span_append hbl (hs.head_not_isBlank hm (power ++ rest))

/-- Where a numeral stands, a number is read, and no less of the text than the numeral. -/
private theorem Spaced.exists_signed? (h : Spaced isBlank p x) (rest : Text) : ∃ y tail,
    signed? ((p ++ rest).dropWhile isBlank) = some (y, tail) ∧ tail.length ≤ rest.length := by
  cases h with
  | @intro bl s m whole fraction power negative e hbl hs hm hpower =>
    obtain ⟨decimal, tail, hunsigned, hle⟩ := exists_unsignedPart_append hm hpower rest
    rw [(span_isBlank hbl hs hm power rest).2, signed?, hs.sign_append hm]
    simp only [hunsigned]
    exact ⟨_, tail, rfl, hle⟩

private theorem take_length_sub {front : Text} (h : t = front ++ rest) :
    t.take (t.length - rest.length) = front := by
  subst h
  rw [List.length_append, Nat.add_sub_cancel, List.take_left]

/-- **What is read is the longest numeral.** -/
theorem foremost_of_signed? (h : signed? (t.dropWhile isBlank) = some (x, rest)) :
    Foremost t (t.take (t.length - rest.length)) x where
  front := List.take_prefix _ _
  numeral := by
    obtain ⟨s, m, whole, fraction, power, negative, e, hs, hm, hpower, hbody, rfl⟩ :=
      exists_of_signed? h
    have ht : t = t.takeWhile isBlank ++ (s ++ (m ++ power)) ++ rest := by
      rw [List.append_assoc, ← hbody, List.takeWhile_append_dropWhile]
    rw [take_length_sub ht]
    exact .intro (fun _ => List.mem_takeWhile_imp) hs hm hpower
  longest q y hq hspaced := by
    -- the reader goes at least as far as the other numeral does
    obtain ⟨more, rfl⟩ := hq
    obtain ⟨y', tail, hread, hle⟩ := hspaced.exists_signed? more
    obtain ⟨-, rfl⟩ := Prod.mk.inj (Option.some.inj (hread.symm.trans h))
    rw [List.length_take, List.length_append]
    omega

/-! ### Separators -/

private theorem separated_append_iff {bl s m whole fraction : Text} {negative : Bool}
    (hbl : ∀ c ∈ bl, isBlank c = true) (hs : Signed s negative) (hm : Mantissa m whole fraction)
    (power rest : Text) :
    Separated (bl ++ (s ++ (m ++ power)) ++ rest) ↔ ¬ ∀ c ∈ bl, isNumeralBlank c = true := by
  rw [separated_iff, (span_isBlank hbl hs hm power rest).1, List.all_eq_true]

/-- No separator stands before a numeral that can be converted. -/
private theorem Spaced.not_separated (h : Spaced isNumeralBlank p x) (rest : Text) :
    ¬ Separated (p ++ rest) := by
  cases h with
  | @intro bl s m whole fraction power negative e hbl hs hm hpower =>
    have hblank : ∀ c ∈ bl, isBlank c = true := fun c hc =>
      ((Bool.and_eq_true _ _).mp (hbl c hc)).1
    rw [separated_append_iff hblank hs hm, not_not]
    exact hbl

/-- Without a separator before it, the longest numeral can be converted. -/
theorem Foremost.convertible (h : Foremost t p x) (hplain : ¬ Separated t) :
    Spaced isNumeralBlank p x := by
  obtain ⟨⟨rest, rfl⟩, hspaced, -⟩ := h
  cases hspaced with
  | intro hbl hs hm hpower =>
    rw [separated_append_iff hbl hs hm, not_not] at hplain
    exact .intro hplain hs hm hpower

/-- **The outcomes of reading the number at the start of a text.** Without a numeral there, there is
no number. The longest numeral is converted, unless a separator stands before it; then it is no
numeral to the converter, and is refused. -/
theorem leading_cases (t : Text) :
    (leading t = .ok none ∧ ∀ p x, p <+: t → ¬ Spaced isBlank p x) ∨
    (∃ p x, Foremost t p x ∧ ¬ Separated t ∧ Spaced isNumeralBlank p x ∧ leading t = .ok (some x)) ∨
    ∃ p x, Foremost t p x ∧ Separated t ∧ (∀ y, ¬ Spaced isNumeralBlank p y) ∧
      leading t = .error (.invalidReal p) := by
  rw [leading]
  cases hread : signed? (t.dropWhile isBlank) with
  | none =>
    refine .inl ⟨rfl, ?_⟩
    rintro p x ⟨more, rfl⟩ hspaced
    obtain ⟨y, tail, hsome, -⟩ := hspaced.exists_signed? more
    cases hread.symm.trans hsome
  | some found =>
    obtain ⟨x, rest⟩ := found
    have hforemost := foremost_of_signed? hread
    by_cases hall : (t.takeWhile isBlank).all isNumeralBlank = true
    · have hplain : ¬ Separated t := mt separated_iff.mp (not_not.mpr hall)
      refine .inr (.inl ⟨_, x, hforemost, hplain, hforemost.convertible hplain, ?_⟩)
      simp only [if_pos hall]
    · have hseparated := separated_iff.mpr hall
      refine .inr (.inr ⟨_, x, hforemost, hseparated, fun y hy => ?_, ?_⟩)
      · obtain ⟨more, hmore⟩ := hforemost.front
        have hnot := hy.not_separated more
        rw [hmore] at hnot
        exact hnot hseparated
      · simp only [if_neg hall]

end Numeral

end Pseudocode
