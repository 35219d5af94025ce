import Pseudocode.Proofs.Tree.Steps

/-!
# Frames and what they do

What the machine does at a position of a program depends on the frame on top of its stack, and what
it does behind that on the frames below. So what lines do is said of **any stack with a frame on top
that stands at them**, by the function on states that the stack cannot tell it from:

* `Carries p q r m`: a frame at position `p` whose lines reach as far as `r` gets to `q`, with the
  effect `m`, and nothing happens to the stack below it. A sequence needs a frame that reaches to
  its end; a block needs one that reaches its header only, since it is left by a jump. That is what
  a clause `SiNo Si` rests on, which runs in a frame for its line alone.
* `Realizes span m`: a frame over a span with one pass to come is taken off in the end, with the
  effect `m`.
* `Opens body m`: the same for what a statement may put on the stack.

Lines that carry a frame to the end of its span make it realize their effect (`Carries.realizes`),
and repeat it in a loop (`Carries.run_whilst`, `Carries.run_counted`); a statement whose body does
what its part in a tree says carries the frame behind the block (`carries_statement`). Faults, and
halting in the middle of a body, need no cases of their own: a halted run is left as it is on both
sides (`run_perform`).
-/

namespace Pseudocode.Structured

open Machine

variable {lines ls : List Line} {around : Surroundings} {p q r number : Nat}
  {m : RunState → RunState}

/-! ### Stretches of lines -/

/-- A frame that is at position `p`, and whose lines reach as far as `r`, gets to position `q`, and
that does to the state what `m` says. -/
def Carries (lines : List Line) (around : Surroundings) (p q r : Nat)
    (m : RunState → RunState) : Prop :=
  ∀ (s : RunState) (f : Frame (Program.ofLines lines).size) (rest : List (Frame _))
    (hq : f.position ≤ q), f.position = p → r ≤ f.span.stop →
    run around s (f :: rest) = run around (m s) (f.goto q hq :: rest)

/-- No lines do nothing. -/
theorem Carries.refl (p r : Nat) : Carries lines around p p r id := by
  intro s f rest hq hp _
  subst hp
  rfl

/-- **Lines that follow one another** do one after the other what each of them does. -/
theorem Carries.trans {q' r' : Nat} {m' : RunState → RunState} (h : Carries lines around p q r m)
    (h' : Carries lines around q q' r' m') (hpq : p ≤ q) (hqq : q ≤ q') (hr : r ≤ r') :
    Carries lines around p q' r' (fun s => m' (m s)) := by
  intro s f rest hq' hp hstop
  have hq : f.position ≤ q := hp ▸ hpq
  rw [h s f rest hq hp (Nat.le_trans hr hstop)]
  exact h' (m s) (f.goto q hq) rest hqq rfl hstop

/-- The lines of the frame may reach further. -/
theorem Carries.mono {r' : Nat} (h : Carries lines around p q r m) (hr : r ≤ r') :
    Carries lines around p q r' m :=
  fun s f rest hq hp hstop => h s f rest hq hp (Nat.le_trans hr hstop)

/-! ### Frames that run a stretch of lines -/

/-- The frame has run through the lines of the span, with the given passes still to come. -/
structure Through {size : Nat} (f : Frame size) (span : Span) (passes : Passes) (line : Nat) :
    Prop where
  span_eq : f.span = span
  stop_le : f.span.stop ≤ f.position
  passes_eq : f.passes = passes
  line_eq : f.line = line

/-- A new frame is one that has run through its lines, with all its passes to come. -/
theorem through_frameOf {program : Program} {i : Nat} (line : Nat) (b : Body i program.size) :
    Through (frameOf line b) b.span b.passes line :=
  ⟨rfl, Nat.le_refl _, rfl, rfl⟩

/-- A frame over the span with one pass to come does what `m` says, and is taken off. -/
def Realizes (lines : List Line) (around : Surroundings) (span : Span)
    (m : RunState → RunState) : Prop :=
  ∀ (s : RunState) (f : Frame (Program.ofLines lines).size) (rest : List (Frame _)) (line : Nat),
    Through f span (.once true) line → run around s (f :: rest) = run around (m s) rest

section Frames

variable {f : Frame (Program.ofLines lines).size} {rest : List (Frame (Program.ofLines lines).size)}
  {s : RunState} {passes : Passes}

/-- A frame that begins a pass is through with it after its lines. -/
private theorem Carries.run_restart (h : Carries lines around p q r m) (hrq : r ≤ q)
    (hf : Through f ⟨p, r⟩ passes number) (left : Passes) (s : RunState)
    (rest : List (Frame (Program.ofLines lines).size)) : ∃ g, Through g ⟨p, r⟩ left number ∧
      run around s (f.restart left :: rest) = run around (m s) (g :: rest) := by
  have hstart : (f.restart left).position = p := congrArg Span.start hf.span_eq
  have hstop : (f.restart left).span.stop = r := congrArg Span.stop hf.span_eq
  have hle : (f.restart left).position ≤ q :=
    Nat.le_trans f.start_le_stop (Nat.le_trans (Nat.le_of_eq hstop) hrq)
  exact ⟨(f.restart left).goto q hle,
    ⟨hf.span_eq, Nat.le_trans (Nat.le_of_eq hstop) hrq, rfl, hf.line_eq⟩,
    h s _ rest hle hstart (Nat.le_of_eq hstop.symm)⟩

/-- A frame without another pass is taken off. -/
private theorem run_of_last (hpass : Exec.nextPass passes = pure none)
    (hf : Through f ⟨p, r⟩ passes number) : run around s (f :: rest) = run around s rest := by
  rw [run_pass hf.passes_eq hf.stop_le, hpass]
  exact perform_pure none _ fun hs => run_of_halted hs rest

/-- Lines that are all the lines of a span realize it. -/
theorem Carries.realizes (h : Carries lines around p q r m) (hrq : r ≤ q) :
    Realizes lines around ⟨p, r⟩ m := by
  intro s f rest line hf
  -- one pass is granted, its lines are run, and no other pass is granted
  obtain ⟨g, hg, hrun⟩ := h.run_restart hrq hf (.once false) s rest
  rw [← run_of_last (s := m s) rfl hg, ← hrun, run_pass hf.passes_eq hf.stop_le]
  exact perform_pure _ _ fun hs => run_of_halted hs _

/-- **A loop with a condition** runs its body pass by pass. The induction is on the number of passes
that it may still have. -/
theorem Carries.run_whilst (h : Carries lines around p q q m) (condition : Text) (left : Nat) :
    ∀ {s : RunState} {f : Frame (Program.ofLines lines).size},
      Through f ⟨p, q⟩ (.whilst condition left) number →
      run around s (f :: rest) =
        run around (repeatWhile around number condition m left s) rest := by
  induction left with
  | zero => exact fun hf => run_of_last rfl hf
  | succ left ih =>
    intro s f hf
    rw [run_pass hf.passes_eq hf.stop_le, hf.line_eq, repeatWhile, run_perform]
    -- the machine is told of a pass by the passes that are left, the tree by the condition itself
    refine perform_alike (R := fun pass holds =>
      pass.map (·.1) = if holds then some (.whilst condition left) else none) ?_ ?_ s
    · refine (Alike.refl _).bind_left fun holds _ h => ?_
      subst h
      cases holds <;> exact .pure rfl
    · intro pass holds t hpass
      cases holds with
      | true =>
        obtain ⟨passes, rfl, hpasses⟩ := Option.map_eq_some_iff.mp hpass
        obtain ⟨g, hg, hrun⟩ := h.run_restart (Nat.le_refl q) hf passes.1 t rest
        simp only [if_true, hrun]
        exact ih (hpasses ▸ hg)
      | false =>
        obtain rfl := Option.map_eq_none_iff.mp hpass
        rfl

/-- **A counting loop** runs its body for the values of its counter. The induction is on the values
that are still to come. -/
theorem Carries.run_counted (h : Carries lines around p q q m) (counter : Text)
    (next last step : Int) (hstep : step ≠ 0) :
    ∀ {s : RunState} {f : Frame (Program.ofLines lines).size},
      Through f ⟨p, q⟩ (.counted counter next last step hstep) number →
      run around s (f :: rest) =
        run around (repeatFor around number counter m (countFrom next last step hstep) s) rest := by
  fun_induction countFrom next last step hstep with
  | case1 next hcounts ih =>
    intro s f hf
    rw [run_pass hf.passes_eq hf.stop_le, hf.line_eq, repeatFor, run_perform]
    -- the counter is set on both sides; the machine's pass holds the value that comes next
    refine perform_alike (R := fun pass _ =>
      pass.map (·.1) = some (.counted counter (next + step) last step hstep)) ?_ ?_ s
    · rw [Exec.nextPass, dif_pos hcounts]
      exact (Alike.refl _).bind_left fun _ _ _ => .pure rfl
    · intro pass _ t hpass
      obtain ⟨passes, rfl, hpasses⟩ := Option.map_eq_some_iff.mp hpass
      obtain ⟨g, hg, hrun⟩ := h.run_restart (Nat.le_refl q) hf passes.1 t rest
      simp only [hrun]
      exact ih (hpasses ▸ hg)
  | case2 next hcounts =>
    refine fun hf => run_of_last ?_ hf
    rw [Exec.nextPass, dif_neg hcounts]

end Frames

/-! ### Statements -/

/-- The statement of a line is what is read from it. -/
theorem getElem?_statements {l : Line} (h : lines.drop p = l :: ls) :
    (Program.ofLines lines).statements[p]? = some ⟨l, Action.read lines p l.text⟩ := by
  have hl : lines[p]? = some l := by
    rw [← Nat.add_zero p, ← List.getElem?_drop, h]
    rfl
  simp [Program.ofLines, Program.statementsOf, hl]

/-- The body that a statement opens, if any, does what `m` says, and is taken off. -/
def Opens {i : Nat} (lines : List Line) (around : Surroundings) (number : Nat)
    (body : Option (Body i (Program.ofLines lines).size)) (m : RunState → RunState) : Prop :=
  ∀ s frames, run around s (push number frames body) = run around (m s) frames

/-- A body with one pass to come does what its span does. -/
theorem Realizes.opens {i : Nat} {body : Body i (Program.ofLines lines).size}
    (h : Realizes lines around body.span m) (hp : body.passes = .once true) :
    Opens lines around number (some body) m :=
  fun s frames => h s _ frames number (hp ▸ through_frameOf number body)

/-- **A statement carries the machine behind its block** if its body does what the result of its
part in the tree stands for. -/
theorem carries_statement {α : Type} {text : Text} {a : Action} {e : Exec α}
    {next : α → RunState → RunState} (h : lines.drop p = ⟨number, text⟩ :: ls)
    (ha : Action.read lines p text = a) (hq : a.resume p = q)
    (he : ∀ hfits : a.Fits p (Program.ofLines lines).size,
      Alike around (fun body b => Opens lines around number body (next b))
        (Exec.statement (.ofLines lines) a hfits) e) :
    Carries lines around p q (p + 1) (perform around number e next) := by
  intro s f rest hle hp hstop
  subst ha hp
  -- the blocks of a program fit by construction; here they have to fit for this very statement
  have hst := getElem?_statements h
  have hfits : (Action.read lines f.position text).Fits f.position
      (Program.ofLines lines).size := by
    obtain ⟨hlt, heq⟩ := Array.getElem?_eq_some_iff.mp hst
    have hfits := (Program.ofLines lines).fits _ hlt
    rw [heq] at hfits
    exact hfits
  rw [run_statement hst hstop hfits hq hle, run_perform]
  exact perform_alike (he hfits) (fun body b t hopens => hopens t _) s

end Pseudocode.Structured
