import Pseudocode.Block.Family

/-!
# The branches of a conditional

A conditional has clauses, `SiNo Si … Entonces` or `SiNo`, at its own level and not inside an inner
conditional. `branches` finds them together with the closing `FinSi`.
-/

namespace Pseudocode

/-- A clause of a conditional: where its line is, and whether it tests a condition of its own. -/
structure Clause where
  tests : Bool
  index : Nat
deriving Repr, DecidableEq

/-- The clauses of a conditional in source order, and the position of the line that closes it. -/
structure Branches where
  clauses : List Clause
  terminator : Nat
deriving Repr, DecidableEq

namespace Branches

open Pattern

/-- The shape of a clause that tests a condition of its own. -/
def elseIfLine : Pattern Unit := do keyword "sino"; blanks; keyword "si"; blank

/-- The shape of the clause for all other cases. -/
def elseLine : Pattern Unit := do keyword "sino"; finish

/-- What a line is as a clause, if it is one. -/
def clauseOf? (i : Nat) (l : Line) : Option Clause :=
  if elseLine.fits l.text then some ⟨false, i⟩
  else if elseIfLine.fits l.text then some ⟨true, i⟩
  else none

/-- Puts a clause before those found further on. -/
def add (c : Option Clause) (b : Branches) : Branches :=
  { b with clauses := c.toList ++ b.clauses }

/-- The branches of a conditional: `ls` are the lines from number `i` on, and `nested` inner
conditionals are still open. -/
def scan (size nested i : Nat) : List Line → Branches
  | [] => ⟨[], size⟩
  | l :: ls =>
    if Family.si.opens l then scan size (nested + 1) (i + 1) ls
    else if Family.si.closes l then
      match nested with
      | 0 => ⟨[], i⟩
      | outer + 1 => scan size outer (i + 1) ls
    else if nested = 0 then add (clauseOf? i l) (scan size 0 (i + 1) ls)
    else scan size nested (i + 1) ls

/-- The branches of the conditional whose first body starts at `start`. -/
def ofLines (lines : List Line) (start : Nat) : Branches :=
  scan lines.length 0 start (lines.drop start)

/-- The position of the first clause. -/
def elseIndex? (b : Branches) : Option Nat := b.clauses.head?.map (·.index)

/-- Where the first body ends: at the first clause or, without clauses, at the closing line. -/
def firstEnd (b : Branches) : Nat := b.elseIndex?.getD b.terminator

/-- Branches within the lines from `i` to `size`: clauses lie before the closing line. -/
structure Within (b : Branches) (i size : Nat) : Prop where
  lower : i ≤ b.terminator
  upper : b.terminator ≤ size
  clauses : ∀ c ∈ b.clauses, i ≤ c.index ∧ c.index < b.terminator

/-- Clauses that lie behind a line lie behind each line before it. -/
theorem Within.mono {b : Branches} {i j size : Nat} (h : b.Within j size) (hij : i ≤ j) :
    b.Within i size where
  lower := Nat.le_trans hij h.lower
  upper := h.upper
  clauses c hc := ⟨Nat.le_trans hij (h.clauses c hc).1, (h.clauses c hc).2⟩

/-- A clause remembers the position of its line. -/
theorem clauseOf?_index {i : Nat} {l : Line} {c : Clause} (h : clauseOf? i l = some c) :
    c.index = i := by
  unfold clauseOf? at h
  split at h
  · exact Option.some.inj h ▸ rfl
  · split at h
    · exact Option.some.inj h ▸ rfl
    · exact absurd h (by simp)

/-- The clauses that are found stand in order, in front of the end that is found with them. -/
theorem scan_within (size nested i : Nat) (ls : List Line) (h : i + ls.length = size) :
    (scan size nested i ls).Within i size := by
  induction ls generalizing nested i with
  | nil => exact ⟨by simp [scan] at h ⊢; omega, Nat.le_refl _, by simp [scan]⟩
  | cons l ls ih =>
    have later : ∀ n, (scan size n (i + 1) ls).Within (i + 1) size := fun n =>
      ih n (i + 1) (by simp at h; omega)
    simp only [scan]
    split
    · exact (later _).mono (Nat.le_succ i)
    · split
      · cases nested with
        | zero => exact ⟨Nat.le_refl _, by simp at h ⊢; omega, by simp⟩
        | succ outer => exact (later _).mono (Nat.le_succ i)
      · split
        · refine ⟨?_, (later 0).upper, ?_⟩
          · exact Nat.le_of_succ_le (later 0).lower
          · intro c hc
            rcases List.mem_append.1 hc with hc | hc
            · have hi : c.index = i := clauseOf?_index (Option.mem_toList.1 hc)
              have := (later 0).lower
              simp only [add]
              omega
            · exact ⟨Nat.le_of_succ_le ((later 0).clauses c hc).1, ((later 0).clauses c hc).2⟩
        · exact (later _).mono (Nat.le_succ i)

/-- The clauses of a conditional lie between its header and the end of the lines. -/
theorem ofLines_within {lines : List Line} {start : Nat} (h : start ≤ lines.length) :
    (ofLines lines start).Within start lines.length :=
  scan_within _ _ _ _ (by simp; omega)

end Branches

end Pseudocode
