import Mathlib.Data.List.Nodup
import Mathlib.Data.List.Perm.Subperm
import Mathlib.Logic.Function.Iterate
import Pseudocode.Proofs.Run.Parts
import Pseudocode.Run.Machine

/-!
# The turns of a run

A run is cut into its turns: `Machine.turn` carries out one step, and `Machine.after n` is what `n`
turns make of a program that has only started. A fault leaves the stack as it is, and the run is
halted from then on, so the loop of `Machine.run` and the repeated turns come to the same state
(`run_eq_run_of_turn`). The turns come to an end because every one of them, but for a fault, makes
the stack `Advance`, which is well founded.

What holds of every stack that a run can reach follows from what one turn does to it
(`turn_cases`): the frame on top is taken off, or goes on, or goes on below a frame that starts
further on. The starts of the frames hence increase strictly from the bottom to the top, and since
they lie within the program there is at most one frame more than there are lines.
-/

namespace Pseudocode

namespace RunState

/-- A run is halted once a fault was noted down. -/
@[simp] theorem halted_report (s : RunState) (line : Nat) (fault : Fault) :
    (s.report line fault).halted = true := by
  change (!(s.errors.push _).isEmpty || s.cancelled) = true
  rw [Array.isEmpty_push]
  rfl

/-- A run goes on as long as there is no message and nobody has cancelled it. -/
theorem halted_eq_false_iff {s : RunState} :
    s.halted = false ↔ s.errors = #[] ∧ s.cancelled = false := by
  simp [halted]

end RunState

namespace Machine

variable {program : Program}

/-- What a run consists of between two turns: what it has done, and the stack of frames. -/
abbrev Config (program : Program) := RunState × List (Frame program.size)

/-- A turn of the main loop; there is none if the stack is empty or the run is halted. A fault
leaves the stack as it is. -/
def turn (around : Surroundings) : Config program → Option (Config program)
  | (_, []) => none
  | (s, f :: rest) =>
    if s.halted then none
    else match step around s f rest with
      | (s', none) => some (s', f :: rest)
      | (s', some new) => some (s', new.1)

/-- A program that has only started. -/
def start (program : Program) : Config program := (.initial, [root program])

/-- Takes a turn if there is one. -/
def goOn (around : Surroundings) (c : Config program) : Config program := (turn around c).getD c

/-- What is left after so many turns. When there are no more turns, nothing changes. -/
def after (around : Surroundings) (program : Program) (n : Nat) : Config program :=
  (goOn around)^[n] (start program)

variable {around : Surroundings}

/-! ### The loop and its turns -/

/-- A run that is halted stays as it is, whatever is on the stack. -/
theorem run_of_halted {s : RunState} (h : s.halted = true) (frames : List (Frame program.size)) :
    run around s frames = s := by
  cases frames with
  | nil => rw [run]
  | cons f rest => rw [run, if_pos h]

/-- A step that ends in a fault halts the run. -/
private theorem halted_of_step {s s' : RunState} {f : Frame program.size}
    {rest : List (Frame program.size)} (h : step around s f rest = (s', none)) :
    s'.halted = true := by
  rw [step] at h
  split at h
  · simp only [stepStatement] at h
    split at h
    · obtain ⟨rfl, -⟩ := Prod.mk.inj h
      exact RunState.halted_report _ _ _
    · cases h
    · cases h
  · simp only [stepPass] at h
    split at h
    · obtain ⟨rfl, -⟩ := Prod.mk.inj h
      exact RunState.halted_report _ _ _
    · cases h
    · cases h

/-- There is no turn exactly when the stack is empty or the run is halted. -/
theorem turn_eq_none_iff {s : RunState} {frames : List (Frame program.size)} :
    turn around (s, frames) = none ↔ frames = [] ∨ s.halted = true := by
  cases frames with
  | nil => simp [turn]
  | cons f rest =>
    by_cases hs : s.halted = true
    · simp [turn, hs]
    · rcases h : step around s f rest with ⟨s', _ | new⟩ <;> simp [turn, hs, h]

/-- Without a further turn, the loop has come to its end. -/
private theorem run_of_turn_eq_none {c : Config program} (h : turn around c = none) :
    run around c.1 c.2 = c.1 := by
  obtain ⟨s, frames⟩ := c
  rcases turn_eq_none_iff.mp h with rfl | hs
  · rw [run]
  · exact run_of_halted hs frames

/-- **One turn of the loop**: the loop goes on from what the turn leaves behind. -/
theorem run_eq_run_of_turn {c d : Config program} (h : turn around c = some d) :
    run around c.1 c.2 = run around d.1 d.2 := by
  obtain ⟨s, _ | ⟨f, rest⟩⟩ := c
  · cases h
  · simp only [turn] at h
    split at h
    · cases h
    · next hs =>
      rw [run, if_neg hs]
      split at h
      · next s' hstep =>
        -- the loop ends at a fault; the turn keeps the stack, which a halted run never looks at
        obtain rfl := Option.some.inj h
        rw [hstep, run_of_halted (halted_of_step hstep)]
      · next s' new hstep =>
        obtain rfl := Option.some.inj h
        rw [hstep]

/-- Where no turn is left, a run stays where it is. -/
theorem goOn_of_turn_eq_none {c : Config program} (h : turn around c = none) :
    goOn around c = c := by
  rw [goOn, h, Option.getD_none]

/-- The loop cannot tell a turn taken before it from one taken by it. -/
private theorem run_goOn (c : Config program) :
    run around (goOn around c).1 (goOn around c).2 = run around c.1 c.2 := by
  cases h : turn around c with
  | none => rw [goOn_of_turn_eq_none h]
  | some d => rw [goOn, h, Option.getD_some, run_eq_run_of_turn h]

/-- Turns that were taken already do not change where a run ends. -/
private theorem run_iterate_goOn (c : Config program) (n : Nat) :
    run around ((goOn around)^[n] c).1 ((goOn around)^[n] c).2 = run around c.1 c.2 := by
  induction n generalizing c with
  | zero => rfl
  | succ n ih => rw [Function.iterate_succ_apply, ih, run_goOn]

/-- **Inversion of a turn.** A turn starts from a run that is not halted. It either ends in a fault,
which leaves the stack as it is and halts the run, or it makes the stack advance. -/
theorem turn_cases {c d : Config program} (h : turn around c = some d) :
    c.1.halted = false ∧ ((d.2 = c.2 ∧ d.1.halted = true) ∨ Advance d.2 c.2) := by
  obtain ⟨s, _ | ⟨f, rest⟩⟩ := c
  · cases h
  · simp only [turn] at h
    split at h
    · cases h
    · next hs =>
      refine ⟨by simpa using hs, ?_⟩
      split at h
      · next s' hstep =>
        obtain rfl := Option.some.inj h
        exact .inl ⟨rfl, halted_of_step hstep⟩
      · next s' new hstep =>
        obtain rfl := Option.some.inj h
        exact .inr new.2

/-! ### The turns come to an end -/

/-- From any configuration, there is no turn left after finitely many. -/
theorem exists_turn_iterate_eq_none (c : Config program) :
    ∃ n, turn around ((goOn around)^[n] c) = none := by
  obtain ⟨s, frames⟩ := c
  -- The stack advances in every turn but one that halts the run, and that one is the last.
  induction frames using wellFounded_advance.induction generalizing s with
  | h frames ih =>
    cases h : turn around (s, frames) with
    | none => exact ⟨0, h⟩
    | some d =>
      have hgo : goOn around (s, frames) = d := by rw [goOn, h, Option.getD_some]
      rcases (turn_cases h).2 with ⟨-, hd⟩ | hadv
      · refine ⟨1, ?_⟩
        rw [Function.iterate_one, hgo]
        exact turn_eq_none_iff.mpr (.inr hd)
      · obtain ⟨n, hn⟩ := ih d.2 hadv d.1
        refine ⟨n + 1, ?_⟩
        rw [Function.iterate_succ_apply, hgo]
        exact hn

/-- **The main loop stops** after finitely many turns. -/
theorem exists_turn_after_eq_none (around : Surroundings) (program : Program) :
    ∃ n, turn around (after around program n) = none :=
  exists_turn_iterate_eq_none (start program)

/-- When there are no more turns, the run has come to its result. -/
theorem execute_eq_close_after {n : Nat} (h : turn around (after around program n) = none) :
    execute around program = close (after around program n).1 := by
  have hrun : run around (after around program n).1 (after around program n).2 =
      run around .initial [root program] := run_iterate_goOn (start program) n
  exact congrArg close (hrun.symm.trans (run_of_turn_eq_none h))

/-- Once there are no more turns, there are none later either. -/
theorem turn_after_eq_none_of_le {m n : Nat} (h : turn around (after around program m) = none)
    (hmn : m ≤ n) : turn around (after around program n) = none := by
  obtain ⟨d, rfl⟩ := Nat.exists_eq_add_of_le hmn
  induction d with
  | zero => exact h
  | succ d ih =>
    rw [← Nat.add_assoc, after, Function.iterate_succ_apply']
    change turn around (goOn around (after around program (m + d))) = none
    rw [goOn_of_turn_eq_none (ih (Nat.le_add_right m d))]
    exact ih (Nat.le_add_right m d)

/-! ### What every stack looks like -/

/-- Each frame starts further on in the program than the frame below it. -/
def Nested (frames : List (Frame program.size)) : Prop :=
  frames.Pairwise fun above below => below.span.start < above.span.start

private theorem nested_cons_iff {f : Frame program.size} {rest : List (Frame program.size)} :
    Nested (f :: rest) ↔ (∀ below ∈ rest, below.span.start < f.span.start) ∧ Nested rest :=
  List.pairwise_cons

/-- Stacks stay nested when they advance. -/
private theorem Nested.advance {new frames : List (Frame program.size)} (h : Nested frames)
    (ha : Advance new frames) : Nested new := by
  cases ha with
  | pop f rest => exact (nested_cons_iff.mp h).2
  | move f' f rest same less =>
    obtain ⟨hf, hrest⟩ := nested_cons_iff.mp h
    exact nested_cons_iff.mpr ⟨fun below hb => same ▸ hf below hb, hrest⟩
  | push g f' f rest same less behind =>
    -- the frame that opens another one starts where it did, so it is nested in the same way
    obtain ⟨hf, hrest⟩ := nested_cons_iff.mp h
    have hmoved : Nested (f' :: rest) :=
      nested_cons_iff.mpr ⟨fun below hb => same ▸ hf below hb, hrest⟩
    refine nested_cons_iff.mpr ⟨fun below hb => ?_, hmoved⟩
    rcases List.mem_cons.mp hb with rfl | hb
    · exact same ▸ behind
    · exact Nat.lt_trans (hf below hb) behind

/-- Starts that differ and lie within the program are at most one more than its lines. -/
private theorem Nested.length_le {frames : List (Frame program.size)} (h : Nested frames) :
    frames.length ≤ program.size + 1 := by
  have hnodup : (frames.map (·.span.start)).Nodup :=
    List.pairwise_map.mpr (h.imp fun hlt => Nat.ne_of_gt hlt)
  have hsub : frames.map (·.span.start) ⊆ List.range (program.size + 1) := by
    intro i hi
    obtain ⟨f, -, rfl⟩ := List.mem_map.mp hi
    exact List.mem_range.mpr (Nat.lt_succ_of_le (Nat.le_trans f.start_le_stop f.stop_le))
  simpa using (hnodup.subperm hsub).length_le

/-- **A turn keeps the frames nested.** -/
private theorem nested_goOn {c : Config program} (h : Nested c.2) : Nested (goOn around c).2 := by
  cases ht : turn around c with
  | none => rwa [goOn_of_turn_eq_none ht]
  | some d =>
    rw [goOn, ht, Option.getD_some]
    rcases (turn_cases ht).2 with ⟨hd, -⟩ | hadv
    · rwa [hd]
    · exact h.advance hadv

/-- Every stack that a run reaches is nested. -/
private theorem nested_after (around : Surroundings) (program : Program) (n : Nat) :
    Nested (after around program n).2 := by
  induction n with
  | zero => exact List.pairwise_singleton _ _
  | succ n ih =>
    rw [after, Function.iterate_succ_apply']
    exact nested_goOn ih

/-- What the loop relies on when it takes its next turn: every frame lies within the program, the
frames start further on from the bottom to the top, and so there are not many of them; and the
statements that it looks up, the next one of a frame and the first clause of a conditional, are
there. -/
structure InBounds (program : Program) (frames : List (Frame program.size)) : Prop where
  spans : ∀ f ∈ frames, f.span.start ≤ f.span.stop ∧ f.span.stop ≤ program.statements.size
  nested : frames.Pairwise fun above below => below.span.start < above.span.start
  depth : frames.length ≤ program.statements.size + 1
  next : ∀ f ∈ frames, f.position < f.span.stop → f.position < program.statements.size
  clause : ∀ (i : Nat) (h : i < program.statements.size) (condition : Text) (b : Branches)
    (chained : Bool), program.statements[i].action = .conditional condition b chained →
      ∀ k ∈ b.elseIndex?, k < program.statements.size

/-- The first clause of a conditional lies within the program. -/
private theorem elseIndex_lt {i : Nat} (h : i < program.statements.size) {condition : Text}
    {b : Branches} {chained : Bool}
    (ha : program.statements[i].action = .conditional condition b chained) {k : Nat}
    (hk : k ∈ b.elseIndex?) : k < program.statements.size := by
  have hfits := program.fits i h
  rw [ha] at hfits
  obtain ⟨c, hc, rfl⟩ := Option.map_eq_some_iff.mp hk
  have hmem := hfits.clauses c (List.mem_of_head? hc)
  exact Nat.lt_of_lt_of_le hmem.2 hfits.upper

/-- Frames that are nested are in bounds. -/
private theorem Nested.inBounds {frames : List (Frame program.size)} (h : Nested frames) :
    InBounds program frames where
  spans f _ := ⟨f.start_le_stop, f.stop_le⟩
  nested := h
  depth := h.length_le
  next f _ hf := Nat.lt_of_lt_of_le hf f.stop_le
  clause _ hi _ _ _ ha _ hk := elseIndex_lt hi ha hk

/-- A program has as many statements as its source has lines that count. -/
private theorem size_ofSource (source : Text) :
    (Program.ofSource source).statements.size = (Line.ofSource source).length := by
  simp [Program.ofSource, Program.ofLines, Program.statementsOf]

/-- **Every run ends and stays in bounds.** Whatever the source text and the surroundings, there is
a last turn of the main loop, after which the run has come to its result; and after any number of
turns the stack of frames is in bounds of the program, which has one statement for each line. -/
theorem executeSource_ends_inBounds (around : Surroundings) (source : Text) :
    (∃ n, turn around (after around (Program.ofSource source) n) = none ∧
      executeSource around source = close (after around (Program.ofSource source) n).1) ∧
    (∀ n, InBounds (Program.ofSource source) (after around (Program.ofSource source) n).2) ∧
    (Program.ofSource source).statements.size = (Line.ofSource source).length := by
  refine ⟨?_, fun n => (nested_after around _ n).inBounds, size_ofSource source⟩
  obtain ⟨n, hn⟩ := exists_turn_after_eq_none around (Program.ofSource source)
  exact ⟨n, hn, execute_eq_close_after hn⟩

end Machine

end Pseudocode
