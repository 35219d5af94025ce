import Pseudocode.Line

/-!
# Block families and their ends

Four families of lines open blocks: `Mientras`, `Para`, `Si` and `Segun`. The end of a block is
found by counting the lines of its own family only: it is the first closing line with as many
closing as opening lines before it (`Family.closing`). A block that is never closed ends behind the
last line.
-/

namespace Pseudocode

/-- The lines from `start` up to but not including `stop`. -/
structure Span where
  start : Nat
  stop : Nat
deriving Repr, DecidableEq

/-- The families of blocks. -/
inductive Family where
  | mientras | para | si | segun
deriving Repr, DecidableEq

namespace Family

open Pattern

/-- The shape of a line that opens a block. -/
def opening : Family → Pattern Unit
  | mientras => do keyword "mientras"; blank
  | para => do keyword "para"; blank
  | si => do
    keyword "si"; blank
    let _ ← runOrNone anything
    edge; keyword "entonces"; edge
  | segun => do keyword "segun"; blank

/-- The shape of a line that closes a block. -/
def closingLine : Family → Pattern Unit
  | mientras => do keyword "fin"; someBlanks; keyword "mientras"; edge
  | para => do keyword "fin"; someBlanks; keyword "para"; edge
  | si => do keyword "fin"; someBlanks; keyword "si"; finish
  | segun => do keyword "fin"; someBlanks; keyword "segun"; edge

/-- Whether a line opens a block of the family. -/
def opens (f : Family) (l : Line) : Bool := f.opening.fits l.text

/-- Whether a line closes a block of the family. -/
def closes (f : Family) (l : Line) : Bool := f.closingLine.fits l.text

/-- The end of a block: `ls` are the lines from number `i` on, and `nested` of the blocks opened
among the lines before them are inner ones that are still open. The answer is `size` if the block
is never closed. -/
def closing (f : Family) (size nested i : Nat) : List Line → Nat
  | [] => size
  | l :: ls =>
    if f.opens l then f.closing size (nested + 1) (i + 1) ls
    else if f.closes l then
      match nested with
      | 0 => i
      | outer + 1 => f.closing size outer (i + 1) ls
    else f.closing size nested (i + 1) ls

/-- The position of the line that closes the block whose body starts at `start`. -/
def blockEnd (f : Family) (lines : List Line) (start : Nat) : Nat :=
  f.closing lines.length 0 start (lines.drop start)

/-- A block ends between the start of its body and the end of the lines. -/
theorem closing_bounds (f : Family) (size nested i : Nat) (ls : List Line)
    (h : i + ls.length = size) :
    i ≤ f.closing size nested i ls ∧ f.closing size nested i ls ≤ size := by
  induction ls generalizing nested i with
  | nil => simp [closing] at h ⊢; omega
  | cons l ls ih =>
    have step : ∀ n, i ≤ f.closing size n (i + 1) ls ∧ f.closing size n (i + 1) ls ≤ size := by
      intro n
      have := ih n (i + 1) (by simp at h; omega)
      omega
    simp only [closing]
    split
    · exact step _
    · split
      · cases nested with
        | zero => simp at h ⊢; omega
        | succ outer => exact step _
      · exact step _

/-- The end of a block is not in front of its first line, and not behind the last line of all. -/
theorem blockEnd_bounds (f : Family) {lines : List Line} {start : Nat}
    (h : start ≤ lines.length) :
    start ≤ f.blockEnd lines start ∧ f.blockEnd lines start ≤ lines.length :=
  closing_bounds f lines.length 0 start _ (by simp; omega)

end Family

end Pseudocode
