import Pseudocode.Run.Statement

/-!
# The machine

A program runs on a stack of frames. In each step the frame on top carries out its next statement,
or asks for its next pass if its lines are used up, or is taken off if there is none. A fault is
noted down and ends the run; so does cancelling, before the next step. Every other step is an
`Advance` of the stack, so a run always comes to an end.
-/

namespace Pseudocode.Machine

variable {program : Program}

/-- What a step makes of a stack. -/
abbrev Advanced (frames : List (Frame program.size)) := { new // Advance new frames }

/-- Carries out the next statement of the frame on top of the stack. -/
def stepStatement (around : Surroundings) (s : RunState) (f : Frame program.size)
    (rest : List (Frame program.size)) (h : f.position < f.span.stop) :
    RunState × Option (Advanced (f :: rest)) :=
  have hp : f.position < program.statements.size := Nat.lt_of_lt_of_le h f.stop_le
  let st := program.statements[f.position]
  have hr : f.position < st.action.resume f.position := Action.lt_resume (program.fits _ hp)
  let f' := f.goto (st.action.resume f.position) (Nat.le_of_lt hr)
  match (Exec.statement program st.action (program.fits _ hp)).run around s with
  | (.error fault, s') => (s'.report st.line.number fault, none)
  | (.ok none, s') => (s', some ⟨f' :: rest, .move f' f rest rfl (Frame.work_goto_lt hr h)⟩)
  | (.ok (some body), s') =>
    let g := Frame.fresh body.span body.passes st.line.number
      ⟨Nat.zero_le _, body.inside.2.1, body.inside.2.2⟩
    have behind : f.span.start < g.span.start :=
      Nat.lt_of_le_of_lt f.start_le_position body.inside.1
    (s', some ⟨g :: f' :: rest, .push g f' f rest rfl (Frame.work_goto_lt hr h) behind⟩)

/-- Asks for the next pass of the frame on top of the stack. -/
def stepPass (around : Surroundings) (s : RunState) (f : Frame program.size)
    (rest : List (Frame program.size)) : RunState × Option (Advanced (f :: rest)) :=
  match (Exec.nextPass f.passes).run around s with
  | (.error fault, s') => (s'.report f.line fault, none)
  | (.ok none, s') => (s', some ⟨rest, .pop f rest⟩)
  | (.ok (some ⟨passes, hlt⟩), s') =>
    (s', some ⟨f.restart passes :: rest,
      .move (f.restart passes) f rest rfl (Frame.work_restart_lt hlt)⟩)

/-- A step of a run: the new state and the new stack, which is missing after a fault. -/
def step (around : Surroundings) (s : RunState) (f : Frame program.size)
    (rest : List (Frame program.size)) : RunState × Option (Advanced (f :: rest)) :=
  if h : f.position < f.span.stop then stepStatement around s f rest h
  else stepPass around s f rest

/-- Carries out steps until the stack is empty or the run is halted. -/
def run (around : Surroundings) (s : RunState) (frames : List (Frame program.size)) : RunState :=
  match frames with
  | [] => s
  | f :: rest =>
    if s.halted then s
    else match step around s f rest with
      | (s', none) => s'
      | (s', some ⟨new, _⟩) => run around s' new
termination_by frames
decreasing_by assumption

/-- The frame of a whole program. -/
def root (program : Program) : Frame program.size :=
  Frame.fresh ⟨0, program.size⟩ (.once true) 0
    ⟨Nat.le_refl _, Nat.zero_le _, Nat.le_refl _⟩

/-- Closes the trace of a run that has ended. -/
def close (s : RunState) : RunState :=
  { s with trace := (s.trace.add .finish "Fin".toList).stitch }

/-- Runs a program. -/
def execute (around : Surroundings) (program : Program) : RunState :=
  close (run around .initial [root program])

/-- Runs the program of a source text. -/
def executeSource (around : Surroundings) (source : Text) : RunState :=
  execute around (Program.ofSource source)

end Pseudocode.Machine
