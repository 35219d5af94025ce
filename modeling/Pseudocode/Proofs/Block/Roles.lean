import Pseudocode.Block.Branches
import Pseudocode.Block.Cases

/-!
# The roles of lines

Three searches walk over the lines of a program: one for the end of a block, one for the clauses of
a conditional and one for the groups of a choice. Each looks at a line through its own patterns,
and nothing keeps a line from matching several of them. `Plays l r` says that the line `l` is seen
in the role `r`, and in no other, by all of them.

The searches have one shape: they count the blocks of one family that are open and stop at the line
that closes one more. `gather` is that shape, with what is to be noted down of the lines on the way
at the outermost level; the three searches are instances of it. How `gather` passes a line follows
from the line's role (`gather_opens`, `gather_closes`, `gather_plain`, `gather_inner`).
-/

namespace Pseudocode

/-- What a line is in the structure of a program. -/
inductive Role where
  /-- Nothing: a statement that opens no block. -/
  | plain
  /-- The line that opens a block. -/
  | opens (f : Family)
  /-- The line that closes a block. -/
  | closes (f : Family)
  /-- A clause of a conditional, with a condition of its own or not. -/
  | clause (tests : Bool)
  /-- The line before a group of a choice. -/
  | mark (m : Mark)

namespace Role

/-- The family of the block that a line in the role opens. -/
def opened? : Role → Option Family
  | opens f => some f
  | _ => none

/-- The family of the block that a line in the role closes. -/
def closed? : Role → Option Family
  | closes f => some f
  | _ => none

/-- The clause that a line in the role starts. -/
def clause? : Role → Option Bool
  | clause tests => some tests
  | _ => none

/-- The group that a line in the role starts. -/
def mark? : Role → Option Mark
  | mark m => some m
  | _ => none

/-- The family of the block that a line in the role is a part of, between its ends. -/
def inner? : Role → Option Family
  | clause _ => some .si
  | mark _ => some .segun
  | _ => none

end Role

/-- The line is seen in the role, and in no other. -/
structure Plays (l : Line) (r : Role) : Prop where
  opens (f : Family) : f.opens l = (r.opened? == some f)
  closes (f : Family) : f.closes l = (r.closed? == some f)
  clause (i : Nat) : Branches.clauseOf? i l = r.clause?.map (⟨·, i⟩)
  mark : Cases.markOf? l = r.mark?

/-! ### One search for all -/

/-- A search for the end of a block of the family `f` that notes down what `note` makes of the
lines at its own level: `ls` are the lines from number `i` on, and `nested` inner blocks are still
open. -/
def gather {α : Type} (f : Family) (note : Nat → Line → Option α) (size nested i : Nat) :
    List Line → List α × Nat
  | [] => ([], size)
  | l :: ls =>
    if f.opens l then gather f note size (nested + 1) (i + 1) ls
    else if f.closes l then
      match nested with
      | 0 => ([], i)
      | outer + 1 => gather f note size outer (i + 1) ls
    else if nested = 0 then
      ((note i l).toList ++ (gather f note size 0 (i + 1) ls).1,
        (gather f note size 0 (i + 1) ls).2)
    else gather f note size nested (i + 1) ls

/-- A search that notes nothing down. -/
def noNote : Nat → Line → Option Empty := fun _ _ => none

/-- The search for the groups of a choice notes marks and their places down. -/
def noteMark (i : Nat) (l : Line) : Option (Mark × Nat) := (Cases.markOf? l).map (·, i)

/-- The search for the end of a block is a search that notes nothing. -/
theorem closing_eq_gather (f : Family) (size nested i : Nat) (ls : List Line) :
    f.closing size nested i ls = (gather f noNote size nested i ls).2 := by
  induction ls generalizing nested i with
  | nil => rfl
  | cons l ls ih =>
    simp only [Family.closing, gather]
    split
    · exact ih _ _
    split
    · cases nested with
      | zero => rfl
      | succ outer => exact ih _ _
    split
    · next hn => rw [hn]; exact ih _ _
    · exact ih _ _

/-- The search for the clauses of a conditional notes the clauses. -/
theorem branches_scan_eq_gather (size nested i : Nat) (ls : List Line) :
    Branches.scan size nested i ls =
      ⟨(gather .si Branches.clauseOf? size nested i ls).1,
        (gather .si Branches.clauseOf? size nested i ls).2⟩ := by
  induction ls generalizing nested i with
  | nil => rfl
  | cons l ls ih =>
    simp only [Branches.scan, gather]
    split
    · exact ih _ _
    split
    · cases nested with
      | zero => rfl
      | succ outer => exact ih _ _
    split
    · rw [ih]; rfl
    · exact ih _ _

/-- The search for the groups of a choice notes the marks. -/
theorem cases_scan_eq_gather (size nested i : Nat) (ls : List Line) :
    Cases.scan size nested i ls = gather .segun noteMark size nested i ls := by
  induction ls generalizing nested i with
  | nil => rfl
  | cons l ls ih =>
    simp only [Cases.scan, gather]
    split
    · exact ih _ _
    split
    · cases nested with
      | zero => rfl
      | succ outer => exact ih _ _
    split
    · rw [ih]; rfl
    · exact ih _ _

/-! ### Passing lines by their roles -/

/-- A search of the family `f` notes down only lines that are parts of its own blocks. -/
def Heeds {α : Type} (f : Family) (note : Nat → Line → Option α) : Prop :=
  ∀ ⦃i l r⦄, Plays l r → r.inner? ≠ some f → note i l = none

/-- Noting nothing heeds every family. -/
theorem heeds_noNote (f : Family) : Heeds f noNote := fun _ _ _ _ _ => rfl

/-- Clauses are parts of conditionals only. -/
theorem heeds_clauseOf? : Heeds .si Branches.clauseOf? := by
  intro i l r h hr
  rw [h.clause]
  cases r with
  | clause _ => exact absurd rfl hr
  | _ => rfl

/-- Marks are parts of choices only. -/
theorem heeds_noteMark : Heeds .segun noteMark := by
  intro i l r h hr
  rw [noteMark, h.mark]
  cases r with
  | mark _ => exact absurd rfl hr
  | _ => rfl

/-- How many blocks of the family `f` are open inside a block of the family `g`. -/
def inside (f g : Family) (nested : Nat) : Nat := if g = f then nested + 1 else nested

section Passing

variable {α : Type} {f g : Family} {note : Nat → Line → Option α} {size nested i : Nat} {l : Line}
  {ls : List Line}

/-- A line that is neither an end of a block of the family nor noted down is passed over. -/
private theorem gather_cons_of_not (ho : f.opens l = false) (hc : f.closes l = false)
    (hn : nested = 0 → note i l = none) :
    gather f note size nested i (l :: ls) = gather f note size nested (i + 1) ls := by
  simp only [gather, ho, hc, if_neg Bool.false_ne_true]
  split
  · next h0 =>
    subst h0
    rw [hn rfl]
    rfl
  · rfl

/-- A header is passed, and one more block may be open. -/
theorem gather_opens (hnote : Heeds f note) (h : Plays l (.opens g)) :
    gather f note size nested i (l :: ls) = gather f note size (inside f g nested) (i + 1) ls := by
  by_cases hfg : g = f
  · subst hfg
    have ho : g.opens l = true := (h.opens g).trans (beq_self_eq_true _)
    simp only [gather, ho, inside, if_pos]
  · rw [inside, if_neg hfg]
    refine gather_cons_of_not ?_ (h.closes f) fun _ => hnote h nofun
    rw [h.opens]
    exact beq_eq_false_iff_ne.mpr fun h => hfg (Option.some.inj h)

/-- The line that closes an inner block is passed, and the block is no longer open. -/
theorem gather_closes (hnote : Heeds f note) (h : Plays l (.closes g)) :
    gather f note size (inside f g nested) i (l :: ls) =
      gather f note size nested (i + 1) ls := by
  by_cases hfg : g = f
  · subst hfg
    have ho : g.opens l = false := h.opens g
    have hc : g.closes l = true := (h.closes g).trans (beq_self_eq_true _)
    simp only [gather, ho, hc, inside, if_pos, if_neg Bool.false_ne_true]
  · rw [inside, if_neg hfg]
    refine gather_cons_of_not (h.opens f) ?_ fun _ => hnote h nofun
    rw [h.closes]
    exact beq_eq_false_iff_ne.mpr fun h => hfg (Option.some.inj h)

/-- A line that closes a block of the family ends the search at its own level. -/
theorem gather_closes_zero (h : Plays l (.closes f)) :
    gather f note size 0 i (l :: ls) = ([], i) := by
  have ho : f.opens l = false := h.opens f
  have hc : f.closes l = true := (h.closes f).trans (beq_self_eq_true _)
  simp only [gather, ho, hc, if_pos, if_neg Bool.false_ne_true]

/-- A line that is neither end of a block of the family is noted down at the level of the search. -/
theorem gather_zero (ho : f.opens l = false) (hc : f.closes l = false) :
    gather f note size 0 i (l :: ls) =
      ((note i l).toList ++ (gather f note size 0 (i + 1) ls).1,
        (gather f note size 0 (i + 1) ls).2) := by
  simp only [gather, ho, hc, if_pos, if_neg Bool.false_ne_true]

/-- A plain line is passed. -/
theorem gather_plain (hnote : Heeds f note) (h : Plays l .plain) :
    gather f note size nested i (l :: ls) = gather f note size nested (i + 1) ls :=
  gather_cons_of_not (h.opens f) (h.closes f) fun _ => hnote h nofun

/-- A clause or a mark is passed over by searches of other families and by those for which its own
block is an inner one. -/
theorem gather_inner (hnote : Heeds f note) {r : Role} (h : Plays l r) (hr : r.inner? = some g) :
    gather f note size (inside f g nested) i (l :: ls) =
      gather f note size (inside f g nested) (i + 1) ls := by
  refine gather_cons_of_not ?_ ?_ fun h0 => hnote h fun hf => ?_
  · rw [h.opens]
    cases r with
    | opens => cases hr
    | _ => rfl
  · rw [h.closes]
    cases r with
    | closes => cases hr
    | _ => rfl
  · -- inside a block of the family itself the search is not at its own level
    obtain rfl := Option.some.inj (hr.symm.trans hf)
    rw [inside, if_pos rfl] at h0
    cases h0

end Passing

end Pseudocode
