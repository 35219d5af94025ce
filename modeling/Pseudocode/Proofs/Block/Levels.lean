import Pseudocode.Proofs.Block.Matching
import Pseudocode.Proofs.Block.Roles

/-!
# Lines at the level of a block

What lies between the line that opens a block and the one that closes it are the blocks of the same
family inside it and, between these, the lines at its own level. `Family.AtLevel` says so by
counting: the position lies before the end of the block, and **as many inner blocks were closed as
were opened before it**. A line that opens or closes an inner block belongs to that block, whatever
else it looks like; the others are owned by the block itself (`Family.Owns`).

A search over the lines of a block finds its way by a count of open blocks that starts anew with
each search. Here the count is traced back to the lines: a search notes down exactly what it has to
note of the lines that the block owns (`mem_gather_iff`), and it ends where the block does
(`gather_snd`).
-/

namespace Pseudocode

namespace Family

/-- The position lies in the block whose body starts at `start`, and in no block of the family
inside it. -/
def AtLevel (f : Family) (lines : List Line) (start j : Nat) : Prop :=
  start ≤ j ∧ j < f.blockEnd lines start ∧
    ((lines.drop start).take (j - start)).countP f.closes =
      ((lines.drop start).take (j - start)).countP f.opens

instance (f : Family) (lines : List Line) (start j : Nat) : Decidable (f.AtLevel lines start j) :=
  inferInstanceAs (Decidable (_ ∧ _))

/-- The line at the position is one of the block itself, whose body starts at `start`: it is at the
level of the block, and it neither opens nor closes a block of the family. -/
structure Owns (f : Family) (lines : List Line) (start j : Nat) (l : Line) : Prop where
  atLevel : f.AtLevel lines start j
  line : lines[j]? = some l
  opens : f.opens l = false
  closes : f.closes l = false

/-- At the level of a block, nothing is left over of the inner blocks. -/
private theorem surplus_eq_zero_iff {f : Family} {ls : List Line} :
    f.surplus ls = 0 ↔ ls.countP f.closes = ls.countP f.opens := by
  rw [surplus]
  omega

end Family

section Search

variable {α : Type} {f : Family} {note : Nat → Line → Option α} {size nested inner i : Nat}
  {l : Line} {ls lines : List Line} {start : Nat} {x : α}

/-- A search ends where the block does, whatever it notes down. -/
theorem gather_snd (f : Family) (note : Nat → Line → Option α) (size nested i : Nat)
    (ls : List Line) : (gather f note size nested i ls).2 = f.closing size nested i ls := by
  induction ls generalizing nested i with
  | nil => rfl
  | cons l ls ih =>
    simp only [gather, Family.closing]
    split
    · exact ih _ _
    split
    · cases nested with
      | zero => rfl
      | succ outer => exact ih _ _
    split
    · next hzero =>
      rw [hzero]
      exact ih _ _
    · exact ih _ _

/-- What is to be noted of a line among `ls`, the first of which has number `i`, if `nested` inner
blocks are open: the line stands before the end of the block, and by then the inner blocks are
closed. -/
def Noted (f : Family) (note : Nat → Line → Option α) (size nested i : Nat) (ls : List Line)
    (x : α) : Prop :=
  ∃ k l, ls[k]? = some l ∧ f.opens l = false ∧ f.closes l = false ∧
    f.surplus (ls.take k) = nested ∧ i + k < f.closing size nested i ls ∧ note (i + k) l = some x

/-- The line in front is noted or one behind it, for which the front line has changed the number of
inner blocks. -/
private theorem noted_cons_iff (hl : f.surplus [l] + inner = nested)
    (hend : f.closing size nested i (l :: ls) = f.closing size inner (i + 1) ls) :
    Noted f note size nested i (l :: ls) x ↔
      (f.opens l = false ∧ f.closes l = false ∧ nested = 0 ∧
        i < f.closing size inner (i + 1) ls ∧ note i l = some x) ∨
      Noted f note size inner (i + 1) ls x := by
  have hsurplus (k : Nat) :
      f.surplus ((l :: ls).take (k + 1)) = f.surplus [l] + f.surplus (ls.take k) := by
    rw [List.take_succ_cons, Family.surplus_cons]
  have hplace (k : Nat) : i + (k + 1) = i + 1 + k := by omega
  constructor
  · rintro ⟨_ | k, m, hm, ho, hc, hlevel, hlt, hnote⟩
    · obtain rfl : l = m := Option.some.inj hm
      rw [hend] at hlt
      rw [List.take_zero, Family.surplus_nil] at hlevel
      exact .inl ⟨ho, hc, by omega, hlt, hnote⟩
    · rw [hsurplus] at hlevel
      rw [hend, hplace] at hlt
      rw [hplace] at hnote
      exact .inr ⟨k, m, hm, ho, hc, by omega, hlt, hnote⟩
  · rintro (⟨ho, hc, hzero, hlt, hnote⟩ | ⟨k, m, hm, ho, hc, hlevel, hlt, hnote⟩)
    · exact ⟨0, l, rfl, ho, hc, by rw [hzero]; rfl, by rwa [hend], hnote⟩
    · refine ⟨k + 1, m, hm, ho, hc, ?_, ?_, ?_⟩
      · rw [hsurplus]
        omega
      · rwa [hend, hplace]
      · rwa [hplace]

/-- **A search notes down what is to be noted of the lines at its own level.** -/
theorem mem_gather_iff_noted (h : i + ls.length = size) :
    x ∈ (gather f note size nested i ls).1 ↔ Noted f note size nested i ls x := by
  induction ls generalizing nested i with
  | nil =>
    refine iff_of_false List.not_mem_nil ?_
    rintro ⟨k, m, hm, -⟩
    cases hm
  | cons l ls ih =>
    have hlater : i + 1 + ls.length = size := by
      rw [← h, List.length_cons]
      omega
    rcases Bool.eq_false_or_eq_true (f.opens l) with ho | ho
    · -- an inner block is opened
      have hend : f.closing size nested i (l :: ls) = f.closing size (nested + 1) (i + 1) ls := by
        simp [Family.closing, ho]
      have hgather : gather f note size nested i (l :: ls) =
          gather f note size (nested + 1) (i + 1) ls := by
        simp [gather, ho]
      have hl : f.surplus [l] + ((nested + 1 : Nat) : Int) = nested := by
        rw [Family.surplus_of_opens ho]
        omega
      rw [hgather, ih hlater, noted_cons_iff hl hend]
      simp [ho]
    rcases Bool.eq_false_or_eq_true (f.closes l) with hc | hc
    · cases nested with
      | zero =>
        -- the block itself is closed, and nothing stands before its end
        have hgather : gather f note size 0 i (l :: ls) = ([], i) := by
          simp [gather, ho, hc]
        have hend : f.closing size 0 i (l :: ls) = i := by
          simp [Family.closing, ho, hc]
        rw [hgather]
        refine iff_of_false List.not_mem_nil ?_
        rintro ⟨k, m, -, -, -, -, hlt, -⟩
        rw [hend] at hlt
        omega
      | succ outer =>
        have hgather : gather f note size (outer + 1) i (l :: ls) =
            gather f note size outer (i + 1) ls := by
          simp [gather, ho, hc]
        have hend : f.closing size (outer + 1) i (l :: ls) = f.closing size outer (i + 1) ls := by
          simp [Family.closing, ho, hc]
        have hl : f.surplus [l] + (outer : Int) = (outer + 1 : Nat) := by
          rw [Family.surplus_of_closes ho hc]
          omega
        rw [hgather, ih hlater, noted_cons_iff hl hend]
        simp [hc]
    · have hend : f.closing size nested i (l :: ls) = f.closing size nested (i + 1) ls := by
        simp [Family.closing, ho, hc]
      have hl : f.surplus [l] + (nested : Int) = nested := by
        rw [Family.surplus_of_neither ho hc]
        omega
      rw [noted_cons_iff hl hend]
      by_cases hzero : nested = 0
      · subst hzero
        have hbefore : i < f.closing size 0 (i + 1) ls :=
          (f.closing_bounds size 0 (i + 1) ls hlater).1
        rw [gather_zero ho hc, List.mem_append, ih hlater, Option.mem_toList]
        simp [ho, hc, hbefore]
      · have hgather : gather f note size nested i (l :: ls) =
            gather f note size nested (i + 1) ls := by
          simp [gather, ho, hc, hzero]
        rw [hgather, ih hlater]
        simp [hzero]

/-- **A search notes down what is to be noted of the lines that the block owns.** -/
theorem mem_gather_iff :
    x ∈ (gather f note lines.length 0 start (lines.drop start)).1 ↔
      ∃ j l, f.Owns lines start j l ∧ note j l = some x := by
  rcases Nat.lt_or_ge lines.length start with hlt | hle
  · -- no line stands behind the last one
    rw [List.drop_of_length_le hlt.le]
    refine iff_of_false List.not_mem_nil ?_
    rintro ⟨j, l, hown, -⟩
    have hj : j < lines.length := (List.getElem?_eq_some_iff.mp hown.line).1
    have := hown.atLevel.1
    omega
  have hsize : start + (lines.drop start).length = lines.length := by
    rw [List.length_drop]
    omega
  rw [mem_gather_iff_noted hsize]
  constructor
  · rintro ⟨k, l, hl, ho, hc, hlevel, hlt, hnote⟩
    refine ⟨start + k, l, ⟨⟨Nat.le_add_right _ _, hlt, ?_⟩, ?_, ho, hc⟩, hnote⟩
    · rw [Nat.add_sub_cancel_left]
      exact Family.surplus_eq_zero_iff.mp hlevel
    · rwa [List.getElem?_drop] at hl
  · rintro ⟨j, l, ⟨⟨hstart, hlt, hlevel⟩, hl, ho, hc⟩, hnote⟩
    obtain ⟨k, rfl⟩ := Nat.exists_eq_add_of_le hstart
    rw [Nat.add_sub_cancel_left] at hlevel
    refine ⟨k, l, ?_, ho, hc, Family.surplus_eq_zero_iff.mpr hlevel, hlt, hnote⟩
    rwa [List.getElem?_drop]

end Search

end Pseudocode
