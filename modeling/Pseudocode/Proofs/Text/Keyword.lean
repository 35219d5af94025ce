import Pseudocode.Text.Blank
import Pseudocode.Text.Case
import Pseudocode.Text.Word

/-!
# Blanks, word characters and the letters of keywords

Two facts about the tables of characters. No white space can stand in a word, so a blank always
puts an edge to the word beside it. And whatever counts as a small ASCII letter in a keyword can
stand in a word: besides the ASCII letters these are the dotted and the dotless `i`, the long `s`
and the Kelvin sign, the only character beyond ASCII whose small form is an ASCII letter.
-/

namespace Pseudocode.Text

/-- The code points of white space, one by one. -/
private def blankCodes : List Nat :=
  blankRanges.flatMap fun (lo, hi) => (List.range (hi + 1 - lo)).map (lo + ·)

/-- A character of a class lies in one of its intervals. -/
theorem mem_of_has {r : Ranges} {c : Char} (h : r.has c = true) :
    ∃ p ∈ r, p.1 ≤ c.toNat ∧ c.toNat ≤ p.2 := by
  induction r with
  | nil => cases h
  | cons p rest ih =>
    obtain ⟨lo, hi⟩ := p
    rw [Ranges.has] at h
    split at h
    · cases h
    · next hlo =>
      rcases (Bool.or_eq_true _ _).mp h with hhi | hrest
      · exact ⟨(lo, hi), List.mem_cons_self, Nat.not_lt.mp hlo, of_decide_eq_true hhi⟩
      · obtain ⟨q, hq, hbounds⟩ := ih hrest
        exact ⟨q, List.mem_cons_of_mem _ hq, hbounds⟩

private theorem mem_blankCodes {c : Char} (h : isBlank c = true) : c.toNat ∈ blankCodes := by
  obtain ⟨⟨lo, hi⟩, hp, hlo, hhi⟩ := mem_of_has h
  refine List.mem_flatMap.mpr ⟨(lo, hi), hp, List.mem_map.mpr ⟨c.toNat - lo, ?_, ?_⟩⟩
  · exact List.mem_range.mpr (by dsimp only at hlo hhi; omega)
  · dsimp only at hlo ⊢
    omega

/-- **No blank stands in a word.** -/
theorem isWordChar_eq_false_of_isBlank {c : Char} (h : isBlank c = true) :
    isWordChar c = false := by
  have hall : ∀ n ∈ blankCodes, isWordChar (Char.ofNat n) = false := by decide +kernel
  have hc := hall c.toNat (mem_blankCodes h)
  rwa [Char.ofNat_toNat] at hc

/-- A character of a word is not blank. -/
theorem isBlank_eq_false_of_isWordChar {c : Char} (h : isWordChar c = true) :
    isBlank c = false := by
  refine (Bool.not_eq_true _).mp fun hblank => ?_
  rw [isWordChar_eq_false_of_isBlank hblank] at h
  cases h

/-- A digit is a character of words. -/
theorem isWordChar_of_isDecimal {c : Char} (h : isDecimal c = true) : isWordChar c = true := by
  simp [isWordChar, isNumeral, isDigit, h]

/-- What words start with is a character of words. -/
theorem isWordChar_of_isLetter {c : Char} (h : (isLetter c || c == '_') = true) :
    isWordChar c = true := by
  rcases (Bool.or_eq_true _ _).mp h with h | h <;> simp [isWordChar, h]

/-- A small ASCII letter. -/
def IsKeyLetter (k : Char) : Prop := 'a'.toNat ≤ k.toNat ∧ k.toNat ≤ 'z'.toNat

instance (k : Char) : Decidable (IsKeyLetter k) := inferInstanceAs (Decidable (_ ∧ _))

/-- What holds of the character of a code holds of every character with this code. -/
theorem of_toNat {p : Char → Bool} {c : Char} {n : Nat} (h : c.toNat = n)
    (hn : p (Char.ofNat n) = true) : p c = true := by
  rwa [← h, Char.ofNat_toNat] at hn

/-- ASCII can be gone through code by code. -/
theorem of_ascii {P : Char → Prop} (h : ∀ n < 0x80, P (Char.ofNat n)) {c : Char}
    (hc : c.toNat < 0x80) : P c := by
  have hn := h c.toNat hc
  rwa [Char.ofNat_toNat] at hn

private theorem isWordChar_of_toLower {c : Char} (hc : c.toNat < 0x80)
    (h : IsKeyLetter c.toLower) : isWordChar c = true :=
  of_ascii (P := fun c => IsKeyLetter c.toLower → isWordChar c = true) (by decide) hc h

private theorem toNat_ofNat_cases (n : Nat) :
    (Char.ofNat n).toNat = n ∨ (Char.ofNat n).toNat = 0 := by
  by_cases h : n.isValidChar
  · rw [Char.ofNat, dif_pos h]
    exact .inl rfl
  · rw [Char.ofNat, dif_neg h]
    exact .inr rfl

/-- Beyond ASCII, only the Kelvin sign has a small form in ASCII. -/
private theorem image?_ge {c n : Nat} (h : lowerRuns.findSome? (·.image? c) = some n) :
    0x80 ≤ n ∨ c = 0x212A := by
  have hall : ∀ r ∈ lowerRuns, (0x80 : Int) ≤ r.first + r.shift ∨
      (r.first = 0x212A ∧ r.last = 0x212A) := by decide +kernel
  obtain ⟨r, hr, himage⟩ := List.exists_of_findSome?_eq_some h
  rw [CaseRun.image?] at himage
  split at himage
  · next hin =>
    obtain rfl := Option.some.inj himage
    have hrun := hall r hr
    omega
  · cases himage

/-- **The letters of keywords are word characters**, in all their forms. -/
theorem isWordChar_of_foldKeyword {c k : Char} (h : foldKeyword c = k) (hk : IsKeyLetter k) :
    isWordChar c = true := by
  subst h
  rw [foldKeyword] at hk
  split at hk
  · next hi => rcases hi with hi | hi <;> exact of_toNat hi (by decide)
  split at hk
  · next hs => exact of_toNat hs (by decide)
  rw [lowerChar] at hk
  split at hk
  · next hascii => exact isWordChar_of_toLower hascii hk
  · next hascii =>
    split at hk
    · next n hn =>
      rcases image?_ge hn with hge | hkelvin
      · obtain ⟨ha, hz⟩ : 97 ≤ (Char.ofNat n).toNat ∧ (Char.ofNat n).toNat ≤ 122 := hk
        rcases toNat_ofNat_cases n with hn | hn <;> omega
      · exact of_toNat hkelvin (by decide +kernel)
    · obtain ⟨-, hz⟩ : 97 ≤ c.toNat ∧ c.toNat ≤ 122 := hk
      omega

end Pseudocode.Text
