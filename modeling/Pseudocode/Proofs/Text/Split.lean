import Mathlib.Algebra.Ring.Nat
import Pseudocode.Text.Basic

/-!
# Cutting at a separator

A text is cut at every occurrence of a separator, so the number of pieces is fixed by the number of
separators (`length_splitAt`), and **texts without a separator that are joined by it are found
again** (`splitAt_join`).
-/

namespace Pseudocode.Text

variable {s : Char} {a t : Text}

private theorem splitAt_cons_of_ne {c : Char} (h : c ≠ s) (t : Text) :
    ∃ piece pieces, splitAt s t = piece :: pieces ∧
      splitAt s (c :: t) = (c :: piece) :: pieces := by
  obtain ⟨piece, pieces, ht⟩ := List.exists_cons_of_ne_nil (splitAt_ne_nil s t)
  refine ⟨piece, pieces, ht, ?_⟩
  rw [splitAt, if_neg h, ht]

/-- There is one piece more than there are separators. -/
theorem length_splitAt (s : Char) (t : Text) : (splitAt s t).length = t.count s + 1 := by
  induction t with
  | nil => rfl
  | cons c t ih =>
    by_cases h : c = s
    · subst h
      rw [splitAt_cons_self, List.length_cons, ih, List.count_cons_self]
    · obtain ⟨piece, pieces, ht, hct⟩ := splitAt_cons_of_ne h t
      rw [hct, List.count_cons_of_ne h, ← ih, ht]
      rfl

/-- A text without the separator is one part. -/
theorem splitAt_of_not_mem (h : s ∉ a) : splitAt s a = [a] := by
  induction a with
  | nil => rfl
  | cons c a ih =>
    obtain ⟨hc, ha⟩ := not_or.mp (mt List.mem_cons.mpr h)
    rw [splitAt, if_neg (Ne.symm hc), ih ha]

/-- The first piece reaches up to the first separator. -/
private theorem splitAt_append (h : s ∉ a) (t : Text) :
    splitAt s (a ++ s :: t) = a :: splitAt s t := by
  induction a with
  | nil => exact splitAt_cons_self s t
  | cons c a ih =>
    obtain ⟨hc, ha⟩ := not_or.mp (mt List.mem_cons.mpr h)
    rw [List.cons_append, splitAt, if_neg (Ne.symm hc), ih ha]

/-- Texts without a separator are found again, each but the first behind what follows the separator
when they are joined. -/
theorem splitAt_join {gap : Text} (hgap : s ∉ gap) {ts : List Text} (ht : s ∉ t)
    (hts : ∀ u ∈ ts, s ∉ u) :
    splitAt s (join (s :: gap) (t :: ts)) = t :: ts.map (gap ++ ·) := by
  induction ts generalizing t with
  | nil => exact splitAt_of_not_mem ht
  | cons u ts ih =>
    obtain ⟨hu, hts⟩ := List.forall_mem_cons.mp hts
    -- what stands between two separators belongs to the text behind it
    have hjoin : gap ++ join (s :: gap) (u :: ts) = join (s :: gap) ((gap ++ u) :: ts) := by
      cases ts with
      | nil => rfl
      | cons v ts => simp
    rw [join_cons_cons, List.append_assoc, List.cons_append, splitAt_append ht, hjoin,
      ih (List.not_mem_append hgap hu) hts]
    rfl

/-- A separator occurs in joined texts as often as in the texts and between them. -/
theorem count_join (gap : Text) (hgap : s ∉ gap) (t : Text) (ts : List Text) :
    (join (s :: gap) (t :: ts)).count s = t.count s + (ts.map (·.count s)).sum + ts.length := by
  induction ts generalizing t with
  | nil => simp
  | cons u ts ih =>
    rw [join_cons_cons, List.count_append, List.count_append, ih, List.count_cons_self,
      List.count_eq_zero_of_not_mem hgap, List.map_cons, List.sum_cons, List.length_cons]
    omega

end Pseudocode.Text
