import Pseudocode.Block.Cases

/-!
# Frames

The bodies that a run is in the middle of are on a stack of frames. A frame runs its lines once for
each pass that it still has; a new frame is used up, so that its first pass is asked for before any
of its lines runs.

A stack changes in one of three ways (`Advance`): the frame on top is taken off; it goes on to a
later line or to a new pass; or it does so and a frame is put on top of it, whose lines start
further on in the program. This cannot go on for ever. Starts of lines are bounded by the size of
the program, so only so many frames can be put on top of one another; and each frame can go on only
so often, because the lines left in its pass and the passes left to it are finite.
`wellFounded_advance` makes this precise.
-/

namespace Pseudocode

/-- The passes that a frame still has. -/
inductive Passes where
  /-- One pass, if it is still pending. -/
  | once (pending : Bool)
  /-- A pass as long as a condition holds, at most `left` times. -/
  | whilst (condition : Text) (left : Nat)
  /-- A pass for each value of a counter from `next` to `last`. -/
  | counted (counter : Text) (next last step : Int) (step_ne : step ≠ 0)

namespace Passes

/-- Whether the counter has not passed its last value. -/
def counts (next last step : Int) : Bool :=
  if 0 < step then next ≤ last else last ≤ next

/-- A bound on the number of passes. -/
def bound : Passes → Nat
  | once pending => if pending then 1 else 0
  | whilst _ left => left
  | counted _ next last step _ =>
    if 0 < step then (last - next + 1).toNat else (next - last + 1).toNat

/-- A pass that is counted leaves fewer of them. -/
theorem bound_counted_lt {counter : Text} {next last step : Int} (h : step ≠ 0)
    (hc : counts next last step = true) :
    (counted counter (next + step) last step h).bound <
      (counted counter next last step h).bound := by
  simp only [counts, bound] at hc ⊢
  split at hc <;> rename_i hstep
  · have hle : next ≤ last := by simpa using hc
    rw [if_pos hstep, if_pos hstep]
    omega
  · have hle : last ≤ next := by simpa using hc
    rw [if_neg hstep, if_neg hstep]
    omega

end Passes

/-- A body in a program of the given size that a run is in the middle of: its lines, the next one to
run, the passes still to come, and the number of the line that opened it. -/
structure Frame (size : Nat) where
  span : Span
  position : Nat
  passes : Passes
  line : Nat
  start_le_stop : span.start ≤ span.stop
  stop_le : span.stop ≤ size
  start_le_position : span.start ≤ position

namespace Frame

variable {size : Nat}

/-- A frame before its first pass. -/
def fresh (span : Span) (passes : Passes) (line : Nat) (h : Cases.Inside 0 size span) :
    Frame size :=
  ⟨span, span.stop, passes, line, h.2.1, h.2.2, h.2.1⟩

/-- A frame at the start of a pass, with the passes that are left after it. -/
def restart (f : Frame size) (passes : Passes) : Frame size :=
  { f with position := f.span.start, passes, start_le_position := Nat.le_refl _ }

/-- A frame that goes on at a later line. -/
def goto (f : Frame size) (position : Nat) (h : f.position ≤ position) : Frame size :=
  { f with position, start_le_position := Nat.le_trans f.start_le_position h }

/-- A bound on what a frame can still do by itself. -/
def work (f : Frame size) : Nat :=
  f.passes.bound * (size + 1) + (f.span.stop - f.position)

/-- A frame that starts over with fewer passes to come has less to do. -/
theorem work_restart_lt {f : Frame size} {passes : Passes} (h : passes.bound < f.passes.bound) :
    (f.restart passes).work < f.work := by
  have hs := f.stop_le
  have hm : (passes.bound + 1) * (size + 1) ≤ f.passes.bound * (size + 1) :=
    Nat.mul_le_mul_right _ h
  have he : (passes.bound + 1) * (size + 1) = passes.bound * (size + 1) + (size + 1) :=
    Nat.succ_mul _ _
  simp only [work, restart]
  omega

/-- A frame that goes on to a later line of its body has less to do. -/
theorem work_goto_lt {f : Frame size} {position : Nat} (h : f.position < position)
    (hp : f.position < f.span.stop) : (f.goto position (Nat.le_of_lt h)).work < f.work := by
  simp only [work, goto]
  omega

end Frame

/-- How a stack of frames changes: `Advance new old`. -/
inductive Advance {size : Nat} : List (Frame size) → List (Frame size) → Prop where
  /-- The frame on top is taken off. -/
  | pop (f : Frame size) (rest : List (Frame size)) : Advance rest (f :: rest)
  /-- The frame on top goes on. -/
  | move (f' f : Frame size) (rest : List (Frame size))
      (same : f'.span = f.span) (less : f'.work < f.work) : Advance (f' :: rest) (f :: rest)
  /-- The frame on top goes on, and a frame that starts behind it is put on top of it. -/
  | push (g f' f : Frame size) (rest : List (Frame size))
      (same : f'.span = f.span) (less : f'.work < f.work) (behind : f.span.start < g.span.start) :
      Advance (g :: f' :: rest) (f :: rest)

/-- If the rest of a stack can change only so often, so can the stack with a frame on top. -/
theorem acc_cons {size : Nat} (room : Nat) : ∀ (work : Nat) (f : Frame size)
    (rest : List (Frame size)), size - f.span.start = room → f.work = work →
    Acc Advance rest → Acc Advance (f :: rest) := by
  induction room using Nat.strongRecOn with
  | ind room ihRoom =>
    intro work
    induction work using Nat.strongRecOn with
    | ind work ihWork =>
      intro f rest hroom hwork hrest
      refine Acc.intro _ fun new h => ?_
      cases h with
      | pop => exact hrest
      | move f' _ _ same less =>
        exact ihWork f'.work (hwork ▸ less) f' rest (same ▸ hroom) rfl hrest
      | push g f' _ _ same less behind =>
        have hg := Nat.le_trans g.start_le_stop g.stop_le
        have below : Acc Advance (f' :: rest) :=
          ihWork f'.work (hwork ▸ less) f' rest (same ▸ hroom) rfl hrest
        exact ihRoom (size - g.span.start) (by omega) g.work g (f' :: rest) rfl rfl below

/-- A stack of frames can change only so often. -/
theorem wellFounded_advance {size : Nat} :
    WellFounded (Advance : List (Frame size) → List (Frame size) → Prop) :=
  ⟨fun frames => by
    induction frames with
    | nil => exact Acc.intro _ fun _ h => nomatch h
    | cons f rest ih => exact acc_cons _ _ f rest rfl rfl ih⟩

instance {size : Nat} : WellFoundedRelation (List (Frame size)) where
  rel := Advance
  wf := wellFounded_advance

end Pseudocode
