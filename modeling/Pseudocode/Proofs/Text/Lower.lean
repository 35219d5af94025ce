import Pseudocode.Proofs.Text.Keyword

/-!
# Small letters and plain characters

A *plain* character is no blank, and if it belongs to ASCII it can stand in a word: nothing that
opens, closes, separates or joins, but perhaps a sign beyond ASCII that has no place in an
expression. **A text in small letters has plain characters only if the text itself has**
(`all_isPlain_lower`). So two texts with the same small form are plain together, whichever of their
characters are letters.

The small forms are given by a table of runs. What has to be known of a run is that it keeps clear
of the blanks and of ASCII at both ends (`CaseRun.IsClear`); the Kelvin sign, whose small form is an
ASCII letter, is a run of its own.
-/

namespace Pseudocode.Text

/-- Whether a character is no blank and, if it belongs to ASCII, can stand in a word. -/
def isPlain (c : Char) : Bool := !isBlank c && (decide (0x80 ≤ c.toNat) || isWordChar c)

/-- A character is plain if it is not blank and either beyond ASCII or of a word. -/
theorem isPlain_iff {c : Char} :
    isPlain c = true ↔ isBlank c = false ∧ (0x80 ≤ c.toNat ∨ isWordChar c = true) := by
  simp [isPlain]

/-- The characters of words are plain. -/
theorem isPlain_of_isWordChar {c : Char} (h : isWordChar c = true) : isPlain c = true :=
  isPlain_iff.mpr ⟨isBlank_eq_false_of_isWordChar h, .inr h⟩

/-! ### The small form of a character -/

/-- No code point from `lo` to `hi` is a blank. -/
def IsClearOfBlanks (lo hi : Int) : Prop := ∀ b ∈ blankRanges, hi < b.1 ∨ (b.2 : Int) < lo

instance (lo hi : Int) : Decidable (IsClearOfBlanks lo hi) :=
  inferInstanceAs (Decidable (∀ b ∈ blankRanges, hi < b.1 ∨ (b.2 : Int) < lo))

private theorem isBlank_eq_false_of_clear {lo hi : Int} (h : IsClearOfBlanks lo hi) {c : Char}
    (hlo : lo ≤ c.toNat) (hhi : c.toNat ≤ hi) : isBlank c = false := by
  refine (Bool.not_eq_true _).mp fun hblank => ?_
  obtain ⟨b, hb, hlow, hhigh⟩ := mem_of_has hblank
  have hclear := h b hb
  omega

/-- The letters of a run and their small forms are no blanks. The small forms are characters, and
they lie beyond ASCII or are a single letter of words. -/
structure CaseRun.IsClear (r : CaseRun) : Prop where
  source : IsClearOfBlanks r.first r.last
  image : IsClearOfBlanks (r.first + r.shift) (r.last + r.shift)
  valid : r.last + r.shift < 0xD800 ∨ 0xDFFF < r.first + r.shift ∧ r.last + r.shift < 0x110000
  beyond : 0x80 ≤ r.first + r.shift ∨
    r.first = r.last ∧ isWordChar (Char.ofNat (r.first + r.shift).toNat) = true

instance (r : CaseRun) : Decidable r.IsClear :=
  decidable_of_iff (IsClearOfBlanks r.first r.last ∧
      IsClearOfBlanks (r.first + r.shift) (r.last + r.shift) ∧
      (r.last + r.shift < 0xD800 ∨ 0xDFFF < r.first + r.shift ∧ r.last + r.shift < 0x110000) ∧
      (0x80 ≤ r.first + r.shift ∨
        r.first = r.last ∧ isWordChar (Char.ofNat (r.first + r.shift).toNat) = true))
    ⟨fun ⟨hsource, himage, hvalid, hbeyond⟩ => ⟨hsource, himage, hvalid, hbeyond⟩,
      fun h => ⟨h.source, h.image, h.valid, h.beyond⟩⟩

private theorem isClear_of_mem_lowerRuns : ∀ r ∈ lowerRuns, r.IsClear := by decide +kernel

/-- The letters of a run and their small forms are plain. -/
private theorem CaseRun.IsClear.isPlain {r : CaseRun} (h : r.IsClear) {c : Char} {n : Nat}
    (hc : 0x80 ≤ c.toNat) (himage : r.image? c.toNat = some n) :
    isPlain c = true ∧ isPlain (Char.ofNat n) = true := by
  rw [image?] at himage
  split at himage
  · next hin =>
    obtain ⟨hfirst, hlast, -⟩ := hin
    have hn := Option.some.inj himage
    have hsource : isBlank c = false := isBlank_eq_false_of_clear h.source (by omega) (by omega)
    refine ⟨isPlain_iff.mpr ⟨hsource, .inl hc⟩, ?_⟩
    rcases h.beyond with hbeyond | ⟨hsingle, hword⟩
    · have hvalid : n.isValidChar := by
        have := h.valid
        simp only [Nat.isValidChar]
        omega
      have htoNat : (Char.ofNat n).toNat = n := by
        rw [Char.ofNat, dif_pos hvalid]
        rfl
      have hblank : isBlank (Char.ofNat n) = false :=
        isBlank_eq_false_of_clear h.image (by omega) (by omega)
      exact isPlain_iff.mpr ⟨hblank, .inl (by omega)⟩
    · have hn' : (r.first + r.shift).toNat = n := by omega
      rw [hn'] at hword
      exact isPlain_of_isWordChar hword
  · cases himage

private theorem isPlain_toLower {c : Char} (h : c.toNat < 0x80) : isPlain c.toLower = isPlain c :=
  of_ascii (P := fun c => isPlain c.toLower = isPlain c) (by decide) h

/-- **The small form of a character is plain exactly if the character is.** -/
theorem isPlain_lowerChar (c : Char) : isPlain (lowerChar c) = isPlain c := by
  rw [lowerChar]
  split
  · next hascii => exact isPlain_toLower hascii
  · next hascii =>
    split
    · next n hn =>
      obtain ⟨r, hr, himage⟩ := List.exists_of_findSome?_eq_some hn
      obtain ⟨hc, hlower⟩ := (isClear_of_mem_lowerRuns r hr).isPlain (Nat.not_lt.mp hascii) himage
      rw [hc, hlower]
    · rfl

/-! ### The small form of a text -/

private theorem all_isPlain_lowerAfter (afterCased : Bool) (t : Text) :
    (lowerAfter afterCased t).all isPlain = t.all isPlain := by
  induction t generalizing afterCased with
  | nil => rfl
  | cons c rest ih =>
    simp only [lowerAfter]
    split
    · -- both small sigmas are plain, as is the capital one
      next hsigma =>
      have hc : isPlain c = true := of_toNat hsigma (by decide)
      have hlower : ∀ final : Bool,
          isPlain (Char.ofNat (if final then 0x3C2 else 0x3C3)) = true := by decide
      rw [List.all_cons, List.all_cons, hc, hlower, ih]
    split
    · next hdotted =>
      have hc : isPlain c = true := of_toNat hdotted (by decide)
      have hi : isPlain 'i' = true := by decide
      have hdot : isPlain (Char.ofNat 0x307) = true := by decide
      rw [List.all_cons, List.all_cons, List.all_cons, hc, hi, hdot, ih, Bool.true_and]
    · rw [List.all_cons, List.all_cons, isPlain_lowerChar, ih]

/-- **A text is plain exactly if it is plain in small letters.** -/
theorem all_isPlain_lower (t : Text) : t.lower.all isPlain = t.all isPlain :=
  all_isPlain_lowerAfter false t

end Pseudocode.Text
