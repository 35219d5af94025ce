import Mathlib.Data.List.DropRight
import Mathlib.Data.List.TakeWhile
import Pseudocode.Text.Trim
import Pseudocode.Text.Word

/-!
# Trimmed texts

A trimmed text has no white space at either end, so a second trimming changes nothing and a search
for its first character that is not blank stays where it is.
-/

namespace Pseudocode.Text

/-- No blank stands at either end of the text. -/
structure Trimmed (t : Text) : Prop where
  head : ∀ c ∈ t.head?, isBlank c = false
  last : ∀ c ∈ t.getLast?, isBlank c = false

private theorem all_isBlank_eq_true_iff {k : Option Char} :
    k.all (!isBlank ·) = true ↔ ∀ c ∈ k, isBlank c = false := by
  cases k <;> simp

instance (t : Text) : Decidable (Trimmed t) :=
  decidable_of_iff (t.head?.all (!isBlank ·) = true ∧ t.getLast?.all (!isBlank ·) = true)
    ⟨fun h => ⟨all_isBlank_eq_true_iff.mp h.1, all_isBlank_eq_true_iff.mp h.2⟩,
      fun h => ⟨all_isBlank_eq_true_iff.mpr h.head, all_isBlank_eq_true_iff.mpr h.last⟩⟩

/-- What remains of a text after its leading blanks starts with none. -/
theorem head_trimStart {t : Text} {c : Char} (h : c ∈ (trimStart t).head?) :
    isBlank c = false := by
  have hd := List.head?_dropWhile_not isBlank t
  rw [trimStart] at h
  rw [Option.mem_def.mp h] at hd
  exact hd

/-- What remains of a text before its trailing blanks ends with none. -/
theorem last_trimEnd {t : Text} {c : Char} (h : c ∈ (trimEnd t).getLast?) :
    isBlank c = false := by
  rw [trimEnd, List.getLast?_reverse] at h
  exact head_trimStart (t := t.reverse) h

/-- Only characters at the end are lost with the trailing blanks. -/
theorem trimEnd_prefix (t : Text) : trimEnd t <+: t := by
  rw [trimEnd, ← List.reverse_suffix, List.reverse_reverse]
  exact List.dropWhile_suffix _

/-- What is lost at the end are blanks. -/
theorem exists_eq_trimEnd_append (t : Text) :
    ∃ v, t = trimEnd t ++ v ∧ ∀ c ∈ v, isBlank c = true := by
  refine ⟨(t.reverse.takeWhile isBlank).reverse, ?_, fun c hc => ?_⟩
  · rw [trimEnd, ← List.reverse_append, List.takeWhile_append_dropWhile, List.reverse_reverse]
  · exact List.mem_takeWhile_imp (List.mem_reverse.mp hc)

/-- A text that was trimmed has no blank at its ends. -/
theorem trimmed_trim (t : Text) : Trimmed t.trim where
  head c hc := by
    rw [trim] at hc
    obtain ⟨rest, hrest⟩ := trimEnd_prefix (trimStart t)
    apply head_trimStart (t := t)
    rw [← hrest, List.head?_append, Option.mem_def.mp hc, Option.some_or]
    rfl
  last c hc := last_trimEnd hc

/-- There is no blank in front to be dropped. -/
theorem Trimmed.dropWhile_isBlank {t : Text} (h : Trimmed t) : t.dropWhile isBlank = t := by
  cases t with
  | nil => rfl
  | cons c rest => rw [List.dropWhile_cons_of_neg (by simp [h.head c rfl])]

/-- There is no blank in front to be taken. -/
theorem Trimmed.takeWhile_isBlank {t : Text} (h : Trimmed t) : t.takeWhile isBlank = [] := by
  cases t with
  | nil => rfl
  | cons c rest => rw [List.takeWhile_cons_of_neg (by simp [h.head c rfl])]

private theorem Trimmed.reverse {t : Text} (h : Trimmed t) : Trimmed t.reverse where
  head c hc := h.last c (by rwa [List.head?_reverse] at hc)
  last c hc := h.head c (by rwa [List.getLast?_reverse] at hc)

/-- **Trimming changes nothing in a trimmed text.** -/
theorem Trimmed.trim_eq {t : Text} (h : Trimmed t) : t.trim = t := by
  rw [trim, trimStart, h.dropWhile_isBlank, trimEnd, h.reverse.dropWhile_isBlank,
    List.reverse_reverse]

/-- Nothing but word characters stands in a name that is trimmed: the line feed that may follow a
name is blank. -/
theorem isWordChar_of_isName {t : Text} (ht : t.Trimmed) (h : t.isName = true) :
    ∀ k ∈ t, isWordChar k = true := by
  cases t with
  | nil => cases h
  | cons c rest =>
    have hbreak : dropFinalBreak rest = rest := by
      refine if_neg fun hlast => ?_
      have hblank := ht.last '\n' (by rw [List.getLast?_cons, hlast]; rfl)
      revert hblank
      decide
    rw [isName, hbreak, Bool.and_eq_true, isNameStart, Bool.and_eq_true] at h
    intro k hk
    rcases List.mem_cons.mp hk with rfl | hk
    · exact h.1.1
    · exact List.all_eq_true.mp h.2 k hk

/-! ### What trimming keeps -/

/-- Trimming adds no character. -/
theorem mem_of_mem_trim {t : Text} {k : Char} (h : k ∈ t.trim) : k ∈ t := by
  have htrim : t.trim <+: trimStart t := trimEnd_prefix _
  exact (List.dropWhile_suffix _).mem (htrim.mem h)

private theorem mem_dropWhile_isBlank {t : Text} {k : Char} (h : k ∈ t) (hk : isBlank k = false) :
    k ∈ t.dropWhile isBlank := by
  rw [← List.takeWhile_append_dropWhile (p := isBlank) (l := t)] at h
  rcases List.mem_append.mp h with h | h
  · rw [List.mem_takeWhile_imp h] at hk
    cases hk
  · exact h

/-- Trimming loses blanks only. -/
theorem mem_trim_of_mem {t : Text} {k : Char} (h : k ∈ t) (hk : isBlank k = false) :
    k ∈ t.trim := by
  rw [trim, trimEnd, List.mem_reverse]
  refine mem_dropWhile_isBlank (List.mem_reverse.mpr ?_) hk
  exact mem_dropWhile_isBlank h hk

/-- Trimming the front first makes no difference. -/
theorem trim_trimStart (t : Text) : (trimStart t).trim = t.trim := by
  rw [trim, trim, trimStart, trimStart, List.dropWhile_idempotent]

/-- Blanks in front are trimmed off. -/
theorem trim_append_left {u : Text} (hu : ∀ c ∈ u, isBlank c = true) (t : Text) :
    (u ++ t).trim = t.trim := by
  rw [trim, trim, trimStart, trimStart, List.dropWhile_append_of_pos hu]

/-- Blanks at the end are trimmed off. -/
theorem trim_append_right {v : Text} (hv : ∀ c ∈ v, isBlank c = true) (t : Text) :
    (t ++ v).trim = t.trim := by
  have hnil : v.dropWhile isBlank = [] := List.dropWhile_eq_nil_iff.mpr hv
  have hend : v.reverse.dropWhile isBlank = [] :=
    List.dropWhile_eq_nil_iff.mpr fun c hc => hv c (List.mem_reverse.mp hc)
  rw [trim, trim, trimStart, trimStart, List.dropWhile_append, hnil]
  split
  · next hempty => rw [List.isEmpty_iff.mp hempty]
  · rw [trimEnd, trimEnd, List.reverse_append, List.dropWhile_append, hend]
    rfl

/-- A trimmed text stays in front when a text with more behind it is trimmed. -/
theorem Trimmed.exists_trim_append {u : Text} (hu : Trimmed u) (w : Text) :
    ∃ x, (u ++ w).trim = u ++ x := by
  cases u with
  | nil => exact ⟨w.trim, rfl⟩
  | cons c u =>
    obtain ⟨v, hv, hblank⟩ := exists_eq_trimEnd_append w
    have htrimmed : Trimmed (c :: u ++ trimEnd w) := by
      refine ⟨hu.head, fun k hk => ?_⟩
      rw [List.getLast?_append] at hk
      rcases hlast : (trimEnd w).getLast? with - | d
      · rw [hlast, Option.none_or] at hk
        exact hu.last k hk
      · rw [hlast, Option.some_or] at hk
        exact last_trimEnd (hlast.trans hk)
    refine ⟨trimEnd w, ?_⟩
    rw [hv, ← List.append_assoc, trim_append_right hblank, ← hv]
    exact htrimmed.trim_eq

end Pseudocode.Text
