import Mathlib.Data.List.Forall2
import Pseudocode.Proofs.Expr.Conditions
import Pseudocode.Proofs.Run.Branching
import Pseudocode.Proofs.Store.History

/-!
# The passes of a counting loop

A counting loop from `a` to `b` with step `k` begins `Passes.count a b k` passes, the one with
number `i` with its counter at `a + i * k`, **whatever its body does**: the body may give the
counter another value, define it anew, change the variables of the bounds, or hold a loop over the
same counter (`Machine.forLoop_runs_passes`).

The reason is that the passes still to come are kept in the frame of the loop. The frame lies on the
stack until the loop is done, and whatever runs above it leaves it as it is; when the frame itself
is on top, its statements leave its passes as they are (`Machine.goOn_loop`).
-/

namespace Pseudocode

/-! ### How many passes there are -/

namespace Passes

/-- The number of passes of a counting loop. -/
def count (first last step : Int) : Nat := (Int.fdiv (last - first) step + 1).toNat

/-- **The counter has not passed its last value** exactly in as many passes as are counted. -/
theorem counts_iff {a b k : Int} (hk : k ≠ 0) (j : Nat) :
    counts (a + j * k) b k = true ↔ j < count a b k := by
  have hcount : j < count a b k ↔ (j : Int) ≤ Int.fdiv (b - a) k := by
    rw [count, Int.lt_toNat]
    omega
  rw [hcount, counts]
  rcases Int.lt_or_gt_of_ne hk with hneg | hpos
  · have hpos : 0 < -k := by omega
    rw [if_neg (by omega), decide_eq_true_iff, ← Int.neg_fdiv_neg,
      Int.fdiv_eq_ediv_of_nonneg _ (by omega), Int.le_ediv_iff_mul_le hpos, Int.mul_neg]
    omega
  · rw [if_pos hpos, decide_eq_true_iff, Int.fdiv_eq_ediv_of_nonneg _ (by omega),
      Int.le_ediv_iff_mul_le hpos]
    omega

end Passes

namespace Exec

variable {around : Surroundings} {s s' : RunState} {counter : Text} {next last step : Int}
  {hstep : step ≠ 0}

/-- A variable that is defined has its value from then on. -/
private theorem exists_get?_of_update {value : Value}
    (h : (update (.define counter .integer value)).run around s = (.ok (), s')) :
    ∃ w, s'.store.get? counter = some w ∧ w.type = .integer ∧ w.value = value := by
  have hstore : s'.store = s.store.define ⟨counter, .integer, value⟩ := by
    have hsnd := congrArg (·.2.store) h
    simp only [run_update, Store.apply, run_notify] at hsnd
    rw [← hsnd]
    cases around.notices <;> rfl
  refine ⟨⟨counter, .integer, value⟩, ?_, rfl, rfl⟩
  rw [hstore, Store.get?_define]
  exact if_pos rfl

/-- **Inversion of the next pass of a counting loop.** There is none when the counter has passed its
last value. Otherwise the counter is defined anew with the next value, which may end in a fault. -/
theorem nextPass_counted_cases {p : Passes} (hp : p = .counted counter next last step hstep)
    (around : Surroundings) (s : RunState) :
    (Passes.counts next last step = false ∧ (nextPass p).run around s = (.ok none, s)) ∨
      (Passes.counts next last step = true ∧
        ((∃ fault s', (nextPass p).run around s = (.error fault, s')) ∨
          ∃ q s', (nextPass p).run around s = (.ok (some q), s') ∧
            q.1 = .counted counter (next + step) last step hstep ∧
            ∃ w, s'.store.get? counter = some w ∧ w.type = .integer ∧ w.value = .int next)) := by
  subst hp
  rw [nextPass]
  by_cases h : Passes.counts next last step = true
  · refine .inr ⟨h, ?_⟩
    rw [dif_pos h, run_bind]
    rcases hupdate : (update (.define counter .integer (.int next))).run around s with
      ⟨fault | _, s'⟩
    · exact .inl ⟨fault, s', rfl⟩
    · exact .inr ⟨_, s', rfl, rfl, exists_get?_of_update hupdate⟩
  · exact .inl ⟨(Bool.not_eq_true _).mp h, by rw [dif_neg h]; rfl⟩

/-! ### How a counting loop starts -/

/-- The bounds and the step of a counting loop are evaluated one after another and cut to integers;
the step is one if there is none. -/
def Bounds (around : Surroundings) (s : RunState) (first last : Text) (step : Option Text)
    (a b k : Int) (s' : RunState) : Prop :=
  ∃ t u, (integerOf first).run around s = (.ok a, t) ∧ (integerOf last).run around t = (.ok b, u) ∧
    step.elim (k = 1 ∧ s' = u) fun source => (integerOf source).run around u = (.ok k, s')

section Start

variable {first last : Text} {step : Option Text} {a b k : Int}

/-- An expression whose value is an integer in the range of doubles stands for the integer. -/
private theorem run_integerOf_of_parse {source : Text} {e : Expr} {n : Int}
    (hlist : Eval.isConcatenation source = false) (hparse : Expr.parse source = .ok e)
    (heval : ∀ scope p, e.eval.outcome scope p = (.ok (.int n), p))
    (hfinite : (Number.int n).isFinite = .ok true) :
    (integerOf source).run around s = (.ok n, s) := by
  have hvalue (scope : Scope) (drawn : Nat) :
      (Eval.value source).run scope drawn = (.ok (.int n), ⟨drawn, #[]⟩) := by
    rw [Eval.run_eq_outcome, Eval.value, if_neg (by simp [hlist]),
      Eval.outcome_expression_of_parse hparse, heval]
  have hevaluate : (evaluate (Eval.value source)).run around s = (.ok (.int n), s) :=
    run_evaluate_of_quiet (hvalue _ _)
  rw [integerOf, run_bind_ok hevaluate, integer]
  simp only [hfinite]
  rfl

/-- Evaluating an integer leaves the variables and the trace as they are. -/
private theorem store_trace_of_integerOf {source : Text} {n : Int}
    (h : (integerOf source).run around s = (.ok n, s')) :
    s'.store = s.store ∧ s'.trace = s.trace := by
  obtain ⟨value, t, hvalue, h⟩ := exists_of_run_bind_eq_ok h
  have ht : t.store = s.store ∧ t.trace = s.trace := by
    rw [run_evaluate] at hvalue
    obtain rfl := (Prod.mk.inj hvalue).2
    exact ⟨rfl, rfl⟩
  obtain ⟨result, hresult⟩ : ∃ result, (integer value source).run around t = (result, t) :=
    exists_run_integer value source
  obtain rfl := (Prod.mk.inj (hresult.symm.trans h)).2
  exact ht

/-- Taking the bounds changes no variable and adds no node. -/
private theorem Bounds.store_trace (h : Bounds around s first last step a b k s') :
    s'.store = s.store ∧ s'.trace = s.trace := by
  obtain ⟨t, u, ha, hb, hk⟩ := h
  obtain ⟨hstore, htrace⟩ := store_trace_of_integerOf ha
  obtain ⟨hstore', htrace'⟩ := store_trace_of_integerOf hb
  have hstep : s'.store = u.store ∧ s'.trace = u.trace := by
    cases step with
    | none => exact ⟨congrArg RunState.store hk.2, congrArg RunState.trace hk.2⟩
    | some source => exact store_trace_of_integerOf hk
  exact ⟨hstep.1.trans (hstore'.trans hstore), hstep.2.trans (htrace'.trans htrace)⟩

/-- A step that is not zero is taken as it is. -/
private theorem run_stepOf_of_elim {u : RunState} (hk : k ≠ 0)
    (h : step.elim (k = 1 ∧ s' = u) fun source => (integerOf source).run around u = (.ok k, s')) :
    (stepOf step).run around u = (.ok ⟨k, hk⟩, s') := by
  cases step with
  | none =>
    obtain ⟨rfl, rfl⟩ := h
    rfl
  | some source =>
    rw [stepOf, run_bind_ok h, dif_pos hk]
    rfl

/-- **A counting loop starts** with all its passes to come. The variables are as they were. -/
theorem Bounds.exists_run_startFor (h : Bounds around s first last step a b k s') (hk : k ≠ 0)
    (counter : Text) :
    ∃ s₁, (startFor counter first last step).run around s = (.ok (.counted counter a b k hk), s₁) ∧
      s₁.store = s.store := by
  have hstore := h.store_trace.1
  obtain ⟨t, u, ha, hb, hstep⟩ := h
  refine ⟨{ s' with trace := s'.trace.add .decision ("Para ".toList ++ counter ++ " <- ".toList ++
    Text.ofInt a ++ " Hasta ".toList ++ Text.ofInt b) }, ?_, hstore⟩
  rw [startFor, run_bind_ok ha, run_bind_ok hb, run_bind_ok (run_stepOf_of_elim hk hstep)]
  rfl

/-- **A step of zero is a fault.** -/
theorem Bounds.exists_run_startFor_zero (h : Bounds around s first last step a b 0 s')
    (counter : Text) :
    ∃ source ∈ step, (startFor counter first last step).run around s =
      (.error (.within source .zeroStep), s') := by
  obtain ⟨t, u, ha, hb, hstep⟩ := h
  cases step with
  | none => cases hstep.1
  | some source =>
    refine ⟨source, rfl, ?_⟩
    have hzero : (stepOf (some source)).run around u = (.error (.within source .zeroStep), s') := by
      rw [stepOf, run_bind_ok hstep, dif_neg (by decide)]
      rfl
    rw [startFor, run_bind_ok ha, run_bind_ok hb, run_bind, hzero]

end Start

section Statement

variable {i size : Nat} {a : Action} {first last : Text} {step : Option Text} {body : Span}

private theorem exists_run_statement_forLoop (program : Program)
    (ha : a = .forLoop counter first last step body) (hfits : a.Fits i size) {passes : Passes}
    (h : (startFor counter first last step).run around s = (.ok passes, s')) :
    ∃ b : Body i size, (statement program a hfits).run around s = (.ok (some b), s') ∧
      b.span = body ∧ b.passes = passes := by
  subst ha
  exact ⟨⟨body, passes, hfits⟩, run_bind_ok h, rfl, rfl⟩

private theorem run_statement_forLoop_of_error (program : Program)
    (ha : a = .forLoop counter first last step body) (hfits : a.Fits i size) {fault : Fault}
    (h : (startFor counter first last step).run around s = (.error fault, s')) :
    (statement program a hfits).run around s = (.error fault, s') := by
  subst ha
  rw [statement, run_bind, h]

end Statement

end Exec

namespace Machine

variable {program : Program} {around : Surroundings}

/-! ### Turns of the frame of a loop -/

/-- Whether the next turn begins a pass of the frame at the given height of the stack. -/
def beginsPass (around : Surroundings) (height : Nat) (c : Config program) : Bool :=
  !c.1.halted && c.2.length == height && c.2.head?.any fun f =>
    decide (f.span.stop ≤ f.position) &&
      ((Exec.nextPass f.passes).run around c.1).1.toOption.join.isSome

/-- A pass over the lines of a body begins, with a counter at a value. -/
structure PassAt (counter : Text) (body : Span) (d : Config program) (value : Int) : Prop where
  frame : ∃ g rest, d.2 = g :: rest ∧ g.span = body ∧ g.position = body.start
  binding : ∃ w, d.1.store.get? counter = some w ∧ w.type = .integer ∧ w.value = .int value

private theorem beginsPass_of_halted {c : Config program} (h : c.1.halted = true) (height : Nat) :
    beginsPass around height c = false := by
  simp [beginsPass, h]

private theorem beginsPass_of_length {c : Config program} {height : Nat} (h : c.2.length ≠ height) :
    beginsPass around height c = false := by
  simp [beginsPass, h]

section Frame

variable {s s' : RunState} {g : Frame program.size} {base : List (Frame program.size)}

private theorem beginsPass_of_lt (h : g.position < g.span.stop) (height : Nat) :
    beginsPass around height (s, g :: base) = false := by
  simp [beginsPass, Nat.not_le.mpr h]

private theorem beginsPass_cons (hs : s.halted = false) (hstop : g.span.stop ≤ g.position) :
    beginsPass around (base.length + 1) (s, g :: base) =
      ((Exec.nextPass g.passes).run around s).1.toOption.join.isSome := by
  simp [beginsPass, hs, hstop]

/-- What lies below the frame on top stays as it is. -/
private theorem exists_goOn_eq_append (around : Surroundings) (s : RunState)
    (g : Frame program.size) (base : List (Frame program.size)) :
    ∃ top, (goOn around (s, g :: base)).2 = top ++ base := by
  cases ht : turn around (s, g :: base) with
  | none => exact ⟨[g], by rw [goOn_of_turn_eq_none ht]; rfl⟩
  | some d =>
    rw [goOn, ht, Option.getD_some]
    rcases (turn_cases ht).2 with ⟨hd, -⟩ | hadvance
    · exact ⟨[g], hd⟩
    · generalize d.2 = new at hadvance
      cases hadvance with
      | pop => exact ⟨[], rfl⟩
      | move g' _ _ _ _ => exact ⟨[g'], rfl⟩
      | push h g' _ _ _ _ _ => exact ⟨[h, g'], rfl⟩

/-- A frame that carries out a statement keeps its lines and its passes. -/
private theorem exists_goOn_of_lt (hlt : g.position < g.span.stop) :
    ∃ top g', (goOn around (s, g :: base)).2 = top ++ g' :: base ∧ g'.span = g.span ∧
      g'.passes = g.passes := by
  cases ht : turn around (s, g :: base) with
  | none => exact ⟨[], g, by rw [goOn_of_turn_eq_none ht]; rfl, rfl, rfl⟩
  | some d =>
    rw [goOn, ht, Option.getD_some]
    obtain ⟨st, -, hd | ⟨g', hspan, hpasses, -, hd | ⟨h, hd, -⟩⟩⟩ := turn_statement ht hlt
    · exact ⟨[], g, hd, rfl, rfl⟩
    · exact ⟨[], g', hd, hspan, hpasses⟩
    · exact ⟨[h], g', hd, hspan, hpasses⟩

/-- A frame that asks for its next pass: a fault leaves it as it is, without a pass it is taken off,
and otherwise it starts again. -/
private theorem goOn_eq_of_nextPass (hs : s.halted = false) (hstop : g.span.stop ≤ g.position) :
    (∀ fault, (Exec.nextPass g.passes).run around s = (.error fault, s') →
      goOn around (s, g :: base) = (s'.report g.line fault, g :: base)) ∧
    ((Exec.nextPass g.passes).run around s = (.ok none, s') →
      goOn around (s, g :: base) = (s', base)) ∧
    (∀ passes, (Exec.nextPass g.passes).run around s = (.ok (some passes), s') →
      goOn around (s, g :: base) = (s', g.restart passes.1 :: base)) := by
  have hturn : goOn around (s, g :: base) =
      (turn around (s, g :: base)).getD (s, g :: base) := rfl
  simp only [turn, hs, Bool.false_eq_true, if_false, step, dif_neg (Nat.not_lt.mpr hstop),
    stepPass] at hturn
  refine ⟨fun fault h => ?_, fun h => ?_, fun passes h => ?_⟩ <;> rw [hturn, h] <;> rfl

end Frame

section Loop

variable {s : RunState} {g : Frame program.size} {base : List (Frame program.size)} {counter : Text}
  {next last step : Int} {hstep : step ≠ 0}

/-- **A turn while a counting loop is on the stack.** The loop begins no pass and has the same
passes left; or it begins the next pass, with its counter at the next value; or it has none left and
is done. -/
theorem goOn_loop (top : List (Frame program.size))
    (hpasses : g.passes = .counted counter next last step hstep) :
    (beginsPass around (base.length + 1) (s, top ++ g :: base) = false ∧
      ∃ top' g', (goOn around (s, top ++ g :: base)).2 = top' ++ g' :: base ∧ g'.span = g.span ∧
        g'.passes = g.passes) ∨
    (beginsPass around (base.length + 1) (s, top ++ g :: base) = true ∧
      Passes.counts next last step = true ∧
      PassAt counter g.span (goOn around (s, top ++ g :: base)) next ∧
      ∃ g', (goOn around (s, top ++ g :: base)).2 = g' :: base ∧ g'.span = g.span ∧
        g'.passes = .counted counter (next + step) last step hstep) ∨
    (beginsPass around (base.length + 1) (s, top ++ g :: base) = false ∧
      Passes.counts next last step = false ∧ s.halted = false ∧
      goOn around (s, top ++ g :: base) = (s, base)) := by
  by_cases hs : s.halted = true
  · have hnone : turn around (s, top ++ g :: base) = none := turn_eq_none_iff.mpr (.inr hs)
    rw [goOn_of_turn_eq_none hnone]
    exact .inl ⟨beginsPass_of_halted hs _, top, g, rfl, rfl, rfl⟩
  have hs : s.halted = false := (Bool.not_eq_true _).mp hs
  cases top with
  | cons h top =>
    -- the turn belongs to a frame above
    obtain ⟨top', hgo⟩ := exists_goOn_eq_append around s h (top ++ g :: base)
    refine .inl ⟨beginsPass_of_length ?_, top' ++ top, g, ?_, rfl, rfl⟩
    · simp
      omega
    · rw [List.cons_append, hgo, List.append_assoc]
  | nil =>
    rw [List.nil_append]
    by_cases hlt : g.position < g.span.stop
    · exact .inl ⟨beginsPass_of_lt hlt _, exists_goOn_of_lt hlt⟩
    have hstop : g.span.stop ≤ g.position := Nat.not_lt.mp hlt
    rw [beginsPass_cons hs hstop]
    obtain ⟨hcounts, hrun⟩ | ⟨hcounts, ⟨fault, s', hrun⟩ | ⟨q, s', hrun, hq, hbinding⟩⟩ :=
      Exec.nextPass_counted_cases hpasses around s
    · rw [hrun]
      exact .inr (.inr ⟨rfl, hcounts, hs, (goOn_eq_of_nextPass hs hstop).2.1 hrun⟩)
    · rw [hrun, (goOn_eq_of_nextPass hs hstop).1 fault hrun]
      exact .inl ⟨rfl, [], g, rfl, rfl, rfl⟩
    · rw [hrun, (goOn_eq_of_nextPass hs hstop).2.2 q hrun]
      exact .inr (.inl ⟨rfl, hcounts, ⟨⟨_, _, rfl, rfl, rfl⟩, hbinding⟩, _, rfl, rfl, hq⟩)

end Loop

/-! ### From the start of a loop until it is done -/

section Start

variable {s s' : RunState} {f : Frame program.size} {line : Line} {counter first last : Text}
  {step : Option Text} {body : Span}

/-- The turn of a counting loop opens its body, with all passes to come. -/
private theorem goOn_forLoop (rest : List (Frame program.size)) (hs : s.halted = false)
    (hlt : f.position < f.span.stop)
    (hst : program.statements[f.position]? =
      some ⟨line, .forLoop counter first last step body⟩) {passes : Passes}
    (hrun : (Exec.startFor counter first last step).run around s = (.ok passes, s')) :
    ∃ g f' : Frame program.size, goOn around (s, f :: rest) = (s', g :: f' :: rest) ∧
      g.span = body ∧ g.passes = passes ∧ g.position = body.stop ∧
      f'.span = f.span ∧ f'.passes = f.passes ∧ f'.position = body.stop + 1 := by
  obtain ⟨hp, hget⟩ := Array.getElem?_eq_some_iff.mp hst
  have haction := congrArg Statement.action hget
  obtain ⟨b, hstatement, hspan, hpasses⟩ := Exec.exists_run_statement_forLoop program haction
    (program.fits _ hp) hrun
  have hr := Action.lt_resume (program.fits _ hp)
  refine ⟨.fresh b.span b.passes program.statements[f.position].line.number
    ⟨Nat.zero_le _, b.inside.2.1, b.inside.2.2⟩, f.goto _ (Nat.le_of_lt hr), ?_, hspan,
    hpasses, congrArg Span.stop hspan, rfl, rfl, ?_⟩
  · rw [goOn, turn, if_neg (by simp [hs]), Machine.step, dif_pos hlt]
    simp only [stepStatement, hstatement]
    rfl
  · exact congrArg (Action.resume f.position) haction

/-- A fault in the bounds of a counting loop is reported at its line, and no body is opened. -/
private theorem goOn_forLoop_of_error (rest : List (Frame program.size)) (hs : s.halted = false)
    (hlt : f.position < f.span.stop)
    (hst : program.statements[f.position]? =
      some ⟨line, .forLoop counter first last step body⟩) {fault : Fault}
    (hrun : (Exec.startFor counter first last step).run around s = (.error fault, s')) :
    goOn around (s, f :: rest) = (s'.report line.number fault, f :: rest) := by
  obtain ⟨hp, hget⟩ := Array.getElem?_eq_some_iff.mp hst
  have haction := congrArg Statement.action hget
  have hstatement := Exec.run_statement_forLoop_of_error program haction (program.fits _ hp) hrun
  rw [goOn, turn, if_neg (by simp [hs]), Machine.step, dif_pos hlt]
  simp only [stepStatement, hstatement]
  rw [hget]
  rfl

end Start

/-- What the turns leave behind, among the next `n`, that begin a pass of the frame which the next
statement opens. -/
def passStarts (around : Surroundings) (c : Config program) (n : Nat) : List (Config program) :=
  ((List.range n).filter fun m => beginsPass around (c.2.length + 1) ((goOn around)^[m] c)).map
    fun m => (goOn around)^[m + 1] c

/-- The values of a counter in its first `j` passes. -/
def counterValues (a k : Int) (j : Nat) : List Int := (List.range j).map fun i : Nat => a + i * k

/-- One pass more takes the next value of the counter. -/
private theorem counterValues_succ (a k : Int) (j : Nat) :
    counterValues a k (j + 1) = counterValues a k j ++ [a + j * k] := by
  simp [counterValues, List.range_succ]

private theorem passStarts_succ (around : Surroundings) (c : Config program) (n : Nat) :
    passStarts around c (n + 1) = passStarts around c n ++
      if beginsPass around (c.2.length + 1) ((goOn around)^[n] c) then
        [(goOn around)^[n + 1] c] else [] := by
  rw [passStarts, List.range_succ, List.filter_append, List.map_append, passStarts]
  by_cases h : beginsPass around (c.2.length + 1) ((goOn around)^[n] c) = true <;> simp [h]

/-- After `n` turns, a counting loop has begun `j` passes and is not done. -/
structure LoopAt (around : Surroundings) (c : Config program) (base : List (Frame program.size))
    (counter : Text) (body : Span) (a b k : Int) (hk : k ≠ 0) (n j : Nat) : Prop where
  frames : ∃ top g, ((goOn around)^[n] c).2 = top ++ g :: base ∧ g.span = body ∧
    g.passes = .counted counter (a + j * k) b k hk
  begun : List.Forall₂ (PassAt counter body) (passStarts around c n) (counterValues a k j)
  le_count : j ≤ Passes.count a b k

section Invariant

variable {c : Config program} {base : List (Frame program.size)} {counter : Text} {body : Span}
  {a b k : Int} {hk : k ≠ 0} {n j : Nat}

/-- **One turn of a counting loop**: it goes on, perhaps with a further pass, or it is done and has
begun all its passes. -/
theorem LoopAt.succ (h : LoopAt around c base counter body a b k hk n j)
    (hbase : base.length = c.2.length) :
    (∃ j', LoopAt around c base counter body a b k hk (n + 1) j') ∨
      ((goOn around)^[n + 1] c = (((goOn around)^[n] c).1, base) ∧
        ((goOn around)^[n] c).1.halted = false ∧ j = Passes.count a b k ∧
        passStarts around c (n + 1) = passStarts around c n) := by
  obtain ⟨⟨top, g, hframes, hspan, hpasses⟩, hbegun, hle⟩ := h
  have hsucc := passStarts_succ around c n
  rw [← hbase, Function.iterate_succ_apply'] at hsucc
  rcases hc : (goOn around)^[n] c with ⟨t, stack⟩
  rw [hc] at hframes hsucc
  obtain rfl : stack = top ++ g :: base := hframes
  have hgo : (goOn around)^[n + 1] c = goOn around (t, top ++ g :: base) := by
    rw [Function.iterate_succ_apply', hc]
  rcases goOn_loop top hpasses with ⟨hno, top', g', hstack, hspan', hpasses'⟩ |
    ⟨hyes, hcounts, hpass, g', hstack, hspan', hpasses'⟩ | ⟨hno, hcounts, hrunning, hstack⟩
  · rw [hno] at hsucc
    refine .inl ⟨j, ⟨top', g', ?_, hspan'.trans hspan, hpasses'.trans hpasses⟩, ?_, hle⟩
    · rw [hgo, hstack]
    · rw [hsucc]
      simpa using hbegun
  · rw [hyes, if_pos rfl] at hsucc
    refine .inl ⟨j + 1, ⟨[], g', ?_, hspan'.trans hspan, ?_⟩, ?_, ?_⟩
    · rw [hgo, hstack]
      rfl
    · rw [hpasses']
      congr 1
      push_cast
      ring
    · rw [hsucc, counterValues_succ]
      exact List.rel_append hbegun (.cons (hspan ▸ hpass) .nil)
    · exact (Passes.counts_iff hk j).mp hcounts
  · rw [hno] at hsucc
    refine .inr ⟨hgo.trans hstack, hrunning, ?_, by simpa using hsucc⟩
    have hnot : ¬ j < Passes.count a b k := fun hlt => by
      rw [(Passes.counts_iff hk j).mpr hlt] at hcounts
      cases hcounts
    omega

/-- **A counting loop that is not done** has begun its first passes. -/
theorem LoopAt.of_busy (h : LoopAt around c base counter body a b k hk 1 0)
    (hbase : base.length = c.2.length) (hbusy : Busy around c (n + 1)) :
    ∃ j, LoopAt around c base counter body a b k hk (n + 1) j := by
  induction n with
  | zero => exact ⟨0, h⟩
  | succ n ih =>
    obtain ⟨j, hj⟩ := ih (hbusy.mono (Nat.le_succ _))
    rcases hj.succ hbase with hnext | ⟨hdone, -⟩
    · exact hnext
    · have hlonger := hbusy (n + 1 + 1) (Nat.succ_le_succ (Nat.zero_le _)) (Nat.le_refl _)
      rw [hdone, ← hbase] at hlonger
      exact absurd hlonger (Nat.lt_irrefl _)

/-- **A counting loop without a pass** does nothing until it is done. -/
theorem iterate_eq_goOn_of_not_counts {s : RunState} {g : Frame program.size}
    (hgo : goOn around c = (s, g :: base)) (hpasses : g.passes = .counted counter a b k hk)
    (hstop : g.span.stop ≤ g.position) (hcounts : Passes.counts a b k = false)
    (hbase : base.length = c.2.length) (hbusy : Busy around c (n + 1)) :
    (goOn around)^[n + 1] c = (s, g :: base) := by
  induction n with
  | zero => exact hgo
  | succ n ih =>
    have hlonger := hbusy (n + 1 + 1) (Nat.succ_le_succ (Nat.zero_le _)) (Nat.le_refl _)
    rw [Function.iterate_succ_apply', ih (hbusy.mono (Nat.le_succ _))] at hlonger ⊢
    by_cases hs : s.halted = true
    · exact goOn_of_turn_eq_none (turn_eq_none_iff.mpr (.inr hs))
    · have hs : s.halted = false := (Bool.not_eq_true _).mp hs
      obtain ⟨-, hrun⟩ | ⟨hyes, -⟩ := Exec.nextPass_counted_cases hpasses around s
      · rw [(goOn_eq_of_nextPass hs hstop).2.1 hrun, hbase] at hlonger
        exact absurd hlonger (Nat.lt_irrefl _)
      · rw [hcounts] at hyes
        cases hyes

end Invariant

/-- A run comes to where the stack is no longer than now, or it is halted before that. -/
private theorem exists_busy {c : Config program} (hne : c.2 ≠ []) :
    ∃ n, Busy around c n ∧
      (((goOn around)^[n] c).1.halted = true ∨ ¬ Busy around c (n + 1)) := by
  by_cases hall : ∀ n, Busy around c n
  · obtain ⟨n, hn⟩ : ∃ n, turn around ((goOn around)^[n] c) = none :=
      exists_turn_iterate_eq_none c
    refine ⟨n, hall n, .inl ?_⟩
    rcases turn_eq_none_iff.mp hn with hnil | hhalted
    · cases n with
      | zero => exact absurd hnil hne
      | succ n =>
        have hlonger := hall (n + 1) (n + 1) (Nat.succ_le_succ (Nat.zero_le n)) (Nat.le_refl _)
        rw [hnil] at hlonger
        exact absurd hlonger (Nat.not_lt_zero _)
    · exact hhalted
  · obtain ⟨n, hn⟩ := not_forall.mp hall
    induction n with
    | zero => exact absurd (fun k hk hk' => absurd (Nat.le_trans hk hk') (by decide)) hn
    | succ n ih =>
      by_cases hbusy : Busy around c n
      · exact ⟨n, hbusy, .inr hn⟩
      · exact ih hbusy

/-- From the turn that starts a counting loop until the loop is done or the run is halted. -/
structure RunsPasses (around : Surroundings) (s : RunState) (f : Frame program.size)
    (rest : List (Frame program.size)) (counter : Text) (body : Span) (a b k : Int) : Prop where
  /-- The run is halted in the loop, or the loop is done at some time. -/
  ends : ∃ n, Busy around (s, f :: rest) n ∧
    (((goOn around)^[n] (s, f :: rest)).1.halted = true ∨ ¬ Busy around (s, f :: rest) (n + 1))
  /-- Until then there are no other passes, and never more of them. -/
  underway : ∀ n, Busy around (s, f :: rest) n → ∃ j ≤ Passes.count a b k,
    List.Forall₂ (PassAt counter body) (passStarts around (s, f :: rest) n) (counterValues a k j)
  /-- When the loop is done, all the passes have begun, and the run goes on behind the loop. Without
  a pass the variables are what they were. -/
  done : ∀ n, Busy around (s, f :: rest) n → ¬ Busy around (s, f :: rest) (n + 1) →
    List.Forall₂ (PassAt counter body) (passStarts around (s, f :: rest) (n + 1))
      (counterValues a k (Passes.count a b k)) ∧
    ((goOn around)^[n + 1] (s, f :: rest)).1.halted = false ∧
    (∃ f' : Frame program.size, ((goOn around)^[n + 1] (s, f :: rest)).2 = f' :: rest ∧
      f'.span = f.span ∧ f'.passes = f.passes ∧ f'.position = body.stop + 1) ∧
    (Passes.count a b k = 0 → ((goOn around)^[n + 1] (s, f :: rest)).1.store = s.store)

section Main

variable {s s' : RunState} {f : Frame program.size} {rest : List (Frame program.size)} {line : Line}
  {counter first last : Text} {step : Option Text} {body : Span} {a b k : Int}

private theorem runsPasses_of_startFor (hs : s.halted = false) (hlt : f.position < f.span.stop)
    (hst : program.statements[f.position]? =
      some ⟨line, .forLoop counter first last step body⟩) (hk : k ≠ 0)
    (hrun : (Exec.startFor counter first last step).run around s =
      (.ok (.counted counter a b k hk), s')) (hstore : s'.store = s.store) :
    RunsPasses around s f rest counter body a b k := by
  obtain ⟨g, f', hgo, hspan, hpasses, hposition, hspan', hpasses', hposition'⟩ :=
    goOn_forLoop rest hs hlt hst hrun
  have hbase : (f' :: rest).length = (s, f :: rest).2.length := rfl
  have hno : passStarts around (s, f :: rest) 1 = [] := by
    rw [passStarts_succ, if_neg (by simp [beginsPass])]
    rfl
  have hstart : LoopAt around (s, f :: rest) (f' :: rest) counter body a b k hk 1 0 := by
    refine ⟨⟨[], g, congrArg Prod.snd hgo, hspan, ?_⟩, ?_, Nat.zero_le _⟩
    · simpa using hpasses
    · rw [hno]
      exact .nil
  have hbusy : Busy around (s, f :: rest) 1 := by
    intro m hm hm'
    obtain rfl : m = 1 := Nat.le_antisymm hm' hm
    rw [Function.iterate_one, hgo]
    exact Nat.lt_succ_self _
  refine ⟨exists_busy (List.cons_ne_nil _ _), fun n hn => ?_, fun n hn hend => ?_⟩
  · cases n with
    | zero => exact ⟨0, Nat.zero_le _, .nil⟩
    | succ n =>
      obtain ⟨j, hj⟩ := hstart.of_busy hbase hn
      exact ⟨j, hj.le_count, hj.begun⟩
  · cases n with
    | zero => exact absurd hbusy hend
    | succ n =>
      obtain ⟨j, hj⟩ := hstart.of_busy hbase hn
      rcases hj.succ hbase with ⟨j', hj'⟩ | ⟨hdone, hrunning, hcount, hstarts⟩
      · refine absurd (fun m hm hm' => ?_) hend
        rcases Nat.lt_or_eq_of_le hm' with hlt | rfl
        · exact hn m hm (Nat.le_of_lt_succ hlt)
        · obtain ⟨top, g', hframes, -⟩ := hj'.frames
          rw [hframes]
          simp
          omega
      · refine ⟨?_, ?_, ⟨f', ?_, hspan', hpasses', hposition'⟩, fun hzero => ?_⟩
        · rw [hstarts, ← hcount]
          exact hj.begun
        · rw [hdone]
          exact hrunning
        · rw [hdone]
        · have hcounts : Passes.counts a b k = false := by
            have hiff := Passes.counts_iff hk (a := a) (b := b) 0
            rw [hzero] at hiff
            simpa using hiff
          have hstop : g.span.stop ≤ g.position := by rw [hspan, hposition]
          rw [hdone, iterate_eq_goOn_of_not_counts hgo hpasses hstop hcounts hbase hn]
          exact hstore

/-- **A counting loop makes the passes that its bounds and its step say, whatever its body does.**
If the step is zero, there is a fault instead, before any pass and before any node of the trace. -/
theorem forLoop_runs_passes (around : Surroundings) (s : RunState) (f : Frame program.size)
    (rest : List (Frame program.size)) (hs : s.halted = false) (hlt : f.position < f.span.stop)
    (hst : program.statements[f.position]? =
      some ⟨line, .forLoop counter first last step body⟩)
    (hbounds : Exec.Bounds around s first last step a b k s') :
    (k ≠ 0 → RunsPasses around s f rest counter body a b k) ∧
    (k = 0 → ∃ source ∈ step,
      goOn around (s, f :: rest) =
        (s'.report line.number (.within source .zeroStep), f :: rest) ∧
      s'.store = s.store ∧ s'.trace = s.trace ∧
      ∀ n, passStarts around (s, f :: rest) n = []) := by
  constructor
  · intro hk
    obtain ⟨s₁, hrun, hstore⟩ := hbounds.exists_run_startFor hk counter
    exact runsPasses_of_startFor hs hlt hst hk hrun hstore
  · rintro rfl
    obtain ⟨source, hsource, hrun⟩ := hbounds.exists_run_startFor_zero counter
    obtain ⟨hstore, htrace⟩ := hbounds.store_trace
    have hgo := goOn_forLoop_of_error rest hs hlt hst hrun
    refine ⟨source, hsource, hgo, hstore, htrace, fun n => ?_⟩
    -- the first turn starts the loop, and after it the run is halted
    have hhalted := RunState.halted_report s' line.number (.within source .zeroStep)
    have hnone : turn around (s'.report line.number (.within source .zeroStep), f :: rest) = none :=
      turn_eq_none_iff.mpr (.inr hhalted)
    induction n with
    | zero => rfl
    | succ n ih =>
      rw [passStarts_succ, ih, if_neg]
      · rfl
      rw [Bool.not_eq_true]
      cases n with
      | zero => exact beginsPass_of_length (by simp)
      | succ n =>
        rw [Function.iterate_succ_apply, hgo, Function.iterate_fixed (goOn_of_turn_eq_none hnone)]
        exact beginsPass_of_halted hhalted _

end Main

/-- A loop that counts down by two, whose body gives the counter another value. -/
def countdownLines : List Line :=
  [⟨1, "Para i <- 5 Hasta 1 Con Paso -2 Hacer".toList⟩, ⟨2, "i <- 0".toList⟩,
    ⟨3, "FinPara".toList⟩]

private theorem statement_countdown : (Program.ofLines countdownLines).statements[0]? =
    some ⟨⟨1, "Para i <- 5 Hasta 1 Con Paso -2 Hacer".toList⟩,
      .forLoop "i".toList "5".toList "1".toList (some "-2".toList) ⟨1, 2⟩⟩ :=
  rfl

private theorem bounds_countdown (around : Surroundings) (s : RunState) :
    Exec.Bounds around s "5".toList "1".toList (some "-2".toList) 5 1 (-2) s := by
  have hfive : scan "5".toList = .ok ⟨[⟨.number (.int 5), 1⟩], 2⟩ := by decide +kernel
  have hone : scan "1".toList = .ok ⟨[⟨.number (.int 1), 1⟩], 2⟩ := by decide +kernel
  have htwo : scan "-2".toList = .ok ⟨[⟨.operator .minus, 1⟩, ⟨.number (.int 2), 2⟩], 3⟩ := by
    decide +kernel
  refine ⟨s, s, ?_, ?_, ?_⟩
  · refine Exec.run_integerOf_of_parse (e := .number (.int 5)) (by decide) ?_
      (fun _ _ => rfl) (by decide)
    rw [Grammar.parse_eq_of_scan hfive]
    rfl
  · refine Exec.run_integerOf_of_parse (e := .number (.int 1)) (by decide) ?_
      (fun _ _ => rfl) (by decide)
    rw [Grammar.parse_eq_of_scan hone]
    rfl
  · refine Exec.run_integerOf_of_parse (e := .unary .negate (.number (.int 2)))
      (by decide) ?_ (fun _ _ => rfl) (by decide)
    rw [Grammar.parse_eq_of_scan htwo]
    rfl

/-- The loop makes three passes, with the counter at 5, 3 and 1. -/
theorem forLoop_runs_passes_countdown :
    RunsPasses .unattended .initial
        ((root (Program.ofLines countdownLines)).restart (.once false)) [] "i".toList ⟨1, 2⟩
        5 1 (-2) ∧
      counterValues 5 (-2) (Passes.count 5 1 (-2)) = [5, 3, 1] := by
  refine ⟨?_, by decide⟩
  have hruns := forLoop_runs_passes .unattended .initial
    ((root (Program.ofLines countdownLines)).restart (.once false)) [] rfl (by decide)
    statement_countdown (bounds_countdown _ _)
  exact hruns.1 (by decide)

end Machine

end Pseudocode
