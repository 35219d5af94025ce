import Pseudocode.Proofs.Block.Bodies
import Pseudocode.Proofs.Expr.Recognition
import Pseudocode.Proofs.Tree.Simulation

/-!
# One branch of a conditional

From the turn that carries out a conditional until it is done, the stack is longer than before, and
the frames below do not change. What lies above them is in one of two phases (`exists_phases`).

* `Deciding`: a frame for the line of a clause, whose turn it is to decide.
* `Running`: frames within one stretch of the lines that the conditional can run (`Reached`). A
  stretch is kept to the end, if the blocks in it end in it (`Closed`).

In both phases there may be frames of earlier clauses below, which have had their one pass and are
only taken off (`Spent`). So whatever is carried out is a line that decides or belongs to one
stretch, and if all stretches are bodies, **one branch at most is run**
(`conditional_runs_one_body`). They need not be: with two clauses `SiNo` the bodies of both are run
(`executeSource_twoElse`).
-/

namespace Pseudocode

/-! ### The bodies that statements open -/

/-- What a statement at position `i` may put on the stack: the lines, and the passes. -/
def Action.Opens (program : Program) (i : Nat) (span : Span) (passes : Passes) : Action → Prop
  | whileLoop _ body => span = body
  | forLoop _ _ _ _ body => span = body
  | choice _ cases => (∃ c ∈ cases.cases, span = c.body) ∨ cases.default = some span
  | conditional _ b _ => passes = .once true ∧ (span = Action.thenBody i b ∨
      ∃ c more, b.clauses = c :: more ∧
        ((program.Chains c ∧ span = ⟨c.index, c.index + 1⟩) ∨
          (¬ program.Chains c ∧ span = ⟨c.index + 1, b.terminator⟩)))
  | _ => False

namespace Exec

variable {α β : Type} {around : Surroundings} {s s' : RunState} {program : Program} {i size : Nat}

private theorem eq_of_run_pure_eq_ok {a b : α} (h : (pure a : Exec α).run around s = (.ok b, s')) :
    a = b := by
  rw [run_pure] at h
  cases h
  rfl

/-- The body that a choice opens is that of one of its groups, or the default. -/
private theorem opens_of_choose {subject : Text} {cases : Cases} (hw : cases.Within (i + 1) size)
    {body : Body i size} (h : (choose subject cases hw).run around s = (.ok (some body), s')) :
    (∃ c ∈ cases.cases, body.span = c.body) ∨ cases.default = some body.span := by
  obtain ⟨value, t, -, h⟩ := exists_of_run_bind_eq_ok h
  obtain ⟨_, t, -, h⟩ := exists_of_run_bind_eq_ok h
  split at h
  · cases h
  · next c hc =>
    obtain ⟨_, t, -, h⟩ := exists_of_run_bind_eq_ok h
    obtain ⟨_, t, -, h⟩ := exists_of_run_bind_eq_ok h
    obtain rfl := Option.some.inj (eq_of_run_pure_eq_ok h)
    exact .inl ⟨c, mem_of_findCase hc, rfl⟩
  · split at h
    · cases eq_of_run_pure_eq_ok h
    · next span hspan =>
      obtain ⟨_, t, -, h⟩ := exists_of_run_bind_eq_ok h
      obtain rfl := Option.some.inj (eq_of_run_pure_eq_ok h)
      exact .inr hspan

/-- The body that a conditional opens is its first one, or what the next clause leads to. -/
private theorem opens_of_decide {condition : Text} {b : Branches} {chained : Bool}
    (hw : b.Within (i + 1) size) {body : Body i size}
    (h : (decide program condition b chained hw).run around s = (.ok (some body), s')) :
    (Action.conditional condition b chained).Opens program i body.span body.passes := by
  obtain ⟨holds, t, -, h⟩ := exists_of_run_bind_eq_ok h
  obtain ⟨_, t, -, h⟩ := exists_of_run_bind_eq_ok h
  have hbody := eq_of_run_pure_eq_ok h
  split at hbody
  · obtain rfl := Option.some.inj hbody
    exact ⟨rfl, .inl rfl⟩
  · unfold elseBody at hbody
    split at hbody
    · cases hbody
    · next c more hclauses =>
      have hbody := Option.some.inj hbody
      split at hbody
      · next hc =>
        subst hbody
        exact ⟨rfl, .inr ⟨c, more, hclauses, .inl ⟨hc, rfl⟩⟩⟩
      · next hc =>
        subst hbody
        exact ⟨rfl, .inr ⟨c, more, hclauses, .inr ⟨hc, rfl⟩⟩⟩

/-- **Inversion of a statement that opens a body.** -/
theorem opens_of_statement {a : Action} {hfits : a.Fits i size} {body : Body i size}
    (h : (statement program a hfits).run around s = (.ok (some body), s')) :
    a.Opens program i body.span body.passes := by
  cases a with
  | skip | marker => cases h
  | declare _ _ | dimension _ _ | input _ _ | output _ | assign _ _ _ _ =>
    obtain ⟨_, t, -, h⟩ := exists_of_run_bind_eq_ok h
    cases eq_of_run_pure_eq_ok h
  | whileLoop _ _ | forLoop _ _ _ _ _ =>
    obtain ⟨_, t, -, h⟩ := exists_of_run_bind_eq_ok h
    obtain rfl := Option.some.inj (eq_of_run_pure_eq_ok h)
    rfl
  | choice _ _ => exact opens_of_choose hfits h
  | conditional _ _ _ => exact opens_of_decide hfits h

end Exec

/-- What a statement opens lies behind it and, if its blocks do, before `stop`. -/
private theorem Action.Opens.bounds {program : Program} {i stop : Nat} {span : Span}
    {passes : Passes} {a : Action} (h : a.Opens program i span passes) (hfits : a.Fits i stop) :
    i < span.start ∧ span.stop ≤ stop := by
  cases a with
  | whileLoop _ _ | forLoop _ _ _ _ _ =>
    obtain rfl : span = _ := h
    exact ⟨hfits.1, hfits.2.2⟩
  | choice _ cases =>
    have hinside : Cases.Inside (i + 1 + 1) cases.terminator span := by
      rcases h with ⟨c, hc, rfl⟩ | hdefault
      · exact hfits.cases c hc
      · exact hfits.default span hdefault
    exact ⟨Nat.lt_of_succ_lt hinside.1, Nat.le_trans hinside.2.2 hfits.upper⟩
  | conditional _ b _ =>
    have hupper : b.terminator ≤ stop := hfits.upper
    have hclause {c : Clause} {more : List Clause} (hclauses : b.clauses = c :: more) :
        i < c.index ∧ c.index < b.terminator :=
      hfits.clauses c (by rw [hclauses]; exact List.mem_cons_self)
    obtain ⟨-, rfl | ⟨c, more, hclauses, ⟨-, rfl⟩ | ⟨-, rfl⟩⟩⟩ := h
    · refine ⟨Nat.lt_succ_self i, ?_⟩
      rw [Action.thenBody, Branches.firstEnd, Branches.elseIndex?]
      cases hclauses : b.clauses with
      | nil => exact hupper
      | cons c more => exact Nat.le_trans (Nat.le_of_lt (hclause hclauses).2) hupper
    · exact ⟨(hclause hclauses).1, Nat.le_trans (hclause hclauses).2 hupper⟩
    · exact ⟨Nat.lt_succ_of_lt (hclause hclauses).1, hupper⟩
  | _ => cases h

namespace Machine

variable {program : Program} {around : Surroundings}

/-! ### Turns of a frame -/

/-- **Inversion of a turn that carries out a statement.** Unless it ends in a fault, the frame goes
on behind the block of the statement, perhaps below a new frame for what the statement opens. -/
theorem turn_statement {s : RunState} {f : Frame program.size} {rest : List (Frame program.size)}
    {d : Config program} (h : turn around (s, f :: rest) = some d)
    (hlt : f.position < f.span.stop) :
    ∃ st, program.statements[f.position]? = some st ∧ (d.2 = f :: rest ∨
      ∃ f' : Frame program.size, f'.span = f.span ∧ f'.passes = f.passes ∧
        f'.position = st.action.resume f.position ∧ (d.2 = f' :: rest ∨
          ∃ g : Frame program.size, d.2 = g :: f' :: rest ∧ g.position = g.span.stop ∧
            st.action.Opens program f.position g.span g.passes)) := by
  have hp : f.position < program.statements.size := Nat.lt_of_lt_of_le hlt f.stop_le
  have hr := Action.lt_resume (program.fits _ hp)
  refine ⟨program.statements[f.position], Array.getElem?_eq_getElem hp, ?_⟩
  simp only [turn, step, dif_pos hlt, stepStatement] at h
  split at h
  · cases h
  rcases hrun : (Exec.statement program program.statements[f.position].action
      (program.fits _ hp)).run around s with ⟨fault | _ | body, s'⟩
  · rw [hrun] at h
    obtain rfl := Option.some.inj h
    exact .inl rfl
  · rw [hrun] at h
    obtain rfl := Option.some.inj h
    exact .inr ⟨f.goto _ (Nat.le_of_lt hr), rfl, rfl, rfl, .inl rfl⟩
  · rw [hrun] at h
    obtain rfl := Option.some.inj h
    have hopens := Exec.opens_of_statement hrun
    exact .inr ⟨f.goto _ (Nat.le_of_lt hr), rfl, rfl, rfl, .inr ⟨.fresh body.span body.passes _
      ⟨Nat.zero_le _, body.inside.2.1, body.inside.2.2⟩, rfl, rfl, hopens⟩⟩

/-- **Inversion of a turn that asks for a pass.** Unless it ends in a fault, the frame is taken off
or begins the pass. -/
theorem turn_pass {s : RunState} {f : Frame program.size} {rest : List (Frame program.size)}
    {d : Config program} (h : turn around (s, f :: rest) = some d)
    (hle : f.span.stop ≤ f.position) :
    d.2 = f :: rest ∨ d.2 = rest ∨
      ∃ f' : Frame program.size, f'.span = f.span ∧ d.2 = f' :: rest := by
  simp only [turn, step, dif_neg (Nat.not_lt.mpr hle), stepPass] at h
  split at h
  · cases h
  rcases hrun : (Exec.nextPass f.passes).run around s with ⟨fault | _ | left, s'⟩
  · rw [hrun] at h
    obtain rfl := Option.some.inj h
    exact .inl rfl
  · rw [hrun] at h
    obtain rfl := Option.some.inj h
    exact .inr (.inl rfl)
  · rw [hrun] at h
    obtain rfl := Option.some.inj h
    exact .inr (.inr ⟨f.restart left.1, rfl, rfl⟩)

/-- A frame whose one pass is over. -/
structure Spent (f : Frame program.size) : Prop where
  stop_le : f.span.stop ≤ f.position
  passes : f.passes = .once false

/-- A frame whose one pass is over is taken off. -/
private theorem Spent.of_turn {s : RunState} {f : Frame program.size} (hf : Spent f)
    {rest : List (Frame program.size)} {d : Config program}
    (h : turn around (s, f :: rest) = some d) : d.2 = rest := by
  obtain ⟨hstop, hpasses⟩ := hf
  obtain ⟨span, position, passes, line, _, _, _⟩ := f
  obtain rfl : passes = _ := hpasses
  simp only [turn, step, dif_neg (Nat.not_lt.mpr hstop), stepPass] at h
  split at h
  · cases h
  obtain rfl := Option.some.inj h
  rfl

/-- A frame whose one pass is pending begins it. -/
private theorem turn_pending {s : RunState} {f : Frame program.size}
    (hstop : f.span.stop ≤ f.position)
    (hpasses : f.passes = .once true) {rest : List (Frame program.size)} {d : Config program}
    (h : turn around (s, f :: rest) = some d) : d.2 = f.restart (.once false) :: rest := by
  obtain ⟨span, position, passes, line, _, _, _⟩ := f
  obtain rfl : passes = _ := hpasses
  simp only [turn, step, dif_neg (Nat.not_lt.mpr hstop), stepPass] at h
  split at h
  · cases h
  obtain rfl := Option.some.inj h
  rfl

/-! ### What a conditional puts on the stack -/

/-- A frame for the line of a clause that decides next, above frames that only wait to be taken
off. -/
def Deciding (program : Program) (i : Nat) (base stack : List (Frame program.size)) : Prop :=
  ∃ (f : Frame program.size) (spent : List (Frame program.size)) (j : Nat) (b : Branches),
    stack = f :: (spent ++ base) ∧ Leads program i j ∧ program.Decides j b ∧
    f.span = ⟨j, j + 1⟩ ∧
    (f.position = j + 1 ∧ f.passes = .once true ∨ f.position = j ∧ f.passes = .once false) ∧
    ∀ g ∈ spent, Spent g

/-- Frames within one stretch of lines that the conditional can run, above frames that only wait to
be taken off. -/
def Running (program : Program) (i : Nat) (span : Span) (base stack : List (Frame program.size)) :
    Prop :=
  ∃ top spent : List (Frame program.size), stack = top ++ (spent ++ base) ∧
    Reached program i span ∧
    (∀ g ∈ top, span.start ≤ g.span.start ∧ g.span.stop ≤ span.stop) ∧ ∀ g ∈ spent, Spent g

/-- What is being run is what the conditional may run. -/
private theorem Running.reached {program : Program} {i : Nat} {span : Span}
    {base stack : List (Frame program.size)} (h : Running program i span base stack) :
    Reached program i span := by
  obtain ⟨_, _, _, hreached, _⟩ := h
  exact hreached

/-- The blocks that statements of the span open lie within the span. -/
def Closed (program : Program) (span : Span) : Prop :=
  ∀ p, span.Has p → ∀ st, program.statements[p]? = some st → st.action.Fits p span.stop

section Phases

variable {s : RunState} {i : Nat} {base stack : List (Frame program.size)} {d : Config program}

/-- **Inversion of a turn that carries out a conditional** which the run comes to or is led to. It
may put a frame on the stack that runs some of its lines, or one for a clause that decides next. -/
theorem turn_conditional {f : Frame program.size} {rest : List (Frame program.size)} {b : Branches}
    (h : turn around (s, f :: rest) = some d) (hlt : f.position < f.span.stop)
    (hleads : Leads program i f.position) (hb : program.Decides f.position b) :
    d.2 = f :: rest ∨ ∃ f' : Frame program.size, f'.span = f.span ∧ f'.passes = f.passes ∧
      f'.position = b.terminator + 1 ∧ (d.2 = f' :: rest ∨
        ∀ spent base, f' :: rest = spent ++ base → (∀ g ∈ spent, Spent g) →
          Deciding program i base d.2 ∨ ∃ span, Running program i span base d.2) := by
  obtain ⟨l, condition, chained, hst⟩ := hb
  obtain ⟨st, hst', hd | ⟨f', hspan, hpasses, hposition, hd⟩⟩ := turn_statement h hlt
  · exact .inl hd
  obtain rfl := Option.some.inj (hst.symm.trans hst')
  refine .inr ⟨f', hspan, hpasses, hposition, ?_⟩
  rcases hd with hd | ⟨g, hd, hfresh, honce, hopens⟩
  · exact .inl hd
  have hb : program.Decides f.position b := ⟨l, condition, chained, hst⟩
  refine .inr fun spent base hrest hspent => ?_
  rw [hd, hrest]
  have hrunning (hreached : Reached program f.position g.span) :
      ∃ span, Running program i span base (g :: (spent ++ base)) :=
    ⟨g.span, [g], spent, rfl, hleads.reached hreached,
      List.forall_mem_singleton.mpr ⟨Nat.le_refl _, Nat.le_refl _⟩, hspent⟩
  rcases hopens with hg | ⟨c, more, hclauses, ⟨hc, hg⟩ | ⟨hc, hg⟩⟩
  · exact .inr (hrunning (hg ▸ .first hb))
  · obtain ⟨b', hb'⟩ := hc.decides
    refine .inl ⟨g, spent, c.index, b', rfl, hleads.clause hb hclauses hc, hb', hg,
      .inl ⟨?_, honce⟩, hspent⟩
    rw [hfresh, hg]
  · exact .inr (hrunning (hg ▸ .rest hb hclauses hc))

/-- A clause that decides next hands over again, or lines of the conditional are run. -/
private theorem Deciding.of_turn (hphase : Deciding program i base stack)
    (h : turn around (s, stack) = some d) :
    Deciding program i base d.2 ∨ ∃ span, Running program i span base d.2 := by
  obtain ⟨f, spent, j, b, rfl, hleads, hb, hspan, hpass | hpass, hspent⟩ := hphase
  · obtain ⟨hposition, hpasses⟩ := hpass
    have hd := turn_pending (by simp [hspan, hposition]) hpasses h
    refine .inl ⟨f.restart (.once false), spent, j, b, hd, hleads, hb, hspan, .inr ⟨?_, rfl⟩,
      hspent⟩
    exact congrArg Span.start hspan
  · obtain ⟨hposition, hpasses⟩ := hpass
    have hlt : f.position < f.span.stop := by
      rw [hspan, hposition]
      exact Nat.lt_succ_self j
    obtain rfl : f.position = j := hposition
    obtain hd | ⟨f', hspan', hpasses', hposition', hd⟩ := turn_conditional h hlt hleads hb
    · exact .inl ⟨f, spent, f.position, b, hd, hleads, hb, hspan, .inr ⟨rfl, hpasses⟩, hspent⟩
    -- the frame of the clause has had its one pass, and joins those that are only taken off
    have hspent' : ∀ g ∈ f' :: spent, Spent g := by
      refine List.forall_mem_cons.mpr ⟨⟨?_, hpasses'.trans hpasses⟩, hspent⟩
      rw [hspan', hspan, hposition']
      exact Nat.le_succ_of_le hb.lt_terminator
    rcases hd with hd | hd
    · exact .inr ⟨_, [], f' :: spent, hd, hleads.reached (.first hb), nofun, hspent'⟩
    · exact hd (f' :: spent) base rfl hspent'

/-- Lines of the conditional that are run are run to their end. -/
private theorem Running.of_turn {span : Span} (hphase : Running program i span base stack)
    (hclosed : Closed program span) (h : turn around (s, stack) = some d)
    (hne : base.length < stack.length) : Running program i span base d.2 := by
  obtain ⟨top, spent, rfl, hreached, htop, hspent⟩ := hphase
  -- with nothing of the stretch left on the stack, only spent frames can have the turn
  cases top with
  | nil =>
    cases spent with
    | nil => exact absurd hne (Nat.lt_irrefl _)
    | cons g spent =>
      obtain ⟨hg, hspent⟩ := List.forall_mem_cons.mp hspent
      exact ⟨[], spent, hg.of_turn h, hreached, nofun, hspent⟩
  | cons g top =>
    obtain ⟨hg, htop⟩ := List.forall_mem_cons.mp htop
    by_cases hlt : g.position < g.span.stop
    · have hhas : span.Has g.position :=
        ⟨Nat.le_trans hg.1 g.start_le_position, Nat.lt_of_lt_of_le hlt hg.2⟩
      obtain ⟨st, hst, hd | ⟨g', hspan, -, -, hd | ⟨k, hd, -, hopens⟩⟩⟩ := turn_statement h hlt
      · exact ⟨g :: top, spent, hd, hreached, List.forall_mem_cons.mpr ⟨hg, htop⟩, hspent⟩
      · exact ⟨g' :: top, spent, hd, hreached,
          List.forall_mem_cons.mpr ⟨by rw [hspan]; exact hg, htop⟩, hspent⟩
      -- what the statement opens ends in the stretch, since the stretch is closed
      · have hbounds := hopens.bounds (hclosed g.position hhas st hst)
        refine ⟨k :: g' :: top, spent, hd, hreached, ?_, hspent⟩
        refine List.forall_mem_cons.mpr ⟨⟨?_, hbounds.2⟩,
          List.forall_mem_cons.mpr ⟨by rw [hspan]; exact hg, htop⟩⟩
        exact Nat.le_of_lt (Nat.lt_of_le_of_lt hhas.1 hbounds.1)
    · rcases turn_pass h (Nat.not_lt.mp hlt) with hd | hd | ⟨g', hspan, hd⟩
      · exact ⟨g :: top, spent, hd, hreached, List.forall_mem_cons.mpr ⟨hg, htop⟩, hspent⟩
      · exact ⟨top, spent, hd, hreached, htop, hspent⟩
      · exact ⟨g' :: top, spent, hd, hreached,
          List.forall_mem_cons.mpr ⟨by rw [hspan]; exact hg, htop⟩, hspent⟩

end Phases

/-! ### From a conditional until it is done -/

/-- The next turn carries out the statement at position `p`. -/
def Executes (c : Config program) (p : Nat) : Prop :=
  c.1.halted = false ∧ ∃ f rest, c.2 = f :: rest ∧ f.position = p ∧ p < f.span.stop

/-- In all of the next `n` turns there is more on the stack than there is now: what the statement of
the next turn has opened is not done yet. -/
def Busy (around : Surroundings) (c : Config program) (n : Nat) : Prop :=
  ∀ k, 1 ≤ k → k ≤ n → c.2.length < ((goOn around)^[k] c).2.length

/-- What is busy for some turns is busy for fewer. -/
theorem Busy.mono {c : Config program} {m n : Nat} (h : Busy around c n) (hmn : m ≤ n) :
    Busy around c m := fun k hk hkm => h k hk (Nat.le_trans hkm hmn)

section Phases

variable {i : Nat} {base : List (Frame program.size)} {c : Config program} {p : Nat}

/-- While a conditional decides, the next statement is one that it leads to. -/
private theorem Deciding.leads (h : Deciding program i base c.2) (hp : Executes c p) :
    Leads program i p := by
  obtain ⟨f, spent, j, b, hstack, hleads, -, hspan, hpass, -⟩ := h
  obtain ⟨-, f', rest, hstack', rfl, hlt⟩ := hp
  obtain ⟨rfl, -⟩ := List.cons.inj (hstack'.symm.trans hstack)
  rcases hpass with ⟨hposition, -⟩ | ⟨hposition, -⟩
  · rw [hspan, hposition] at hlt
    exact absurd hlt (Nat.lt_irrefl _)
  · exact hposition ▸ hleads

/-- While there is more on the stack than before the conditional, the next statement lies in the
body. -/
private theorem Running.has {span : Span} (h : Running program i span base c.2) (hp : Executes c p)
    (hne : base.length < c.2.length) : span.Has p := by
  obtain ⟨top, spent, hstack, -, htop, hspent⟩ := h
  obtain ⟨-, f, rest, hstack', rfl, hlt⟩ := hp
  rw [hstack'] at hstack hne
  cases top with
  | cons g top =>
    obtain ⟨rfl, -⟩ := List.cons.inj hstack
    have hf := htop f List.mem_cons_self
    exact ⟨Nat.le_trans hf.1 f.start_le_position, Nat.lt_of_lt_of_le hlt hf.2⟩
  | nil =>
    cases spent with
    | nil =>
      rw [hstack] at hne
      exact absurd hne (Nat.lt_irrefl _)
    | cons g spent =>
      obtain ⟨rfl, -⟩ := List.cons.inj hstack
      exact absurd hlt (Nat.not_lt.mpr (hspent f List.mem_cons_self).stop_le)

/-- A turn goes on deciding, or starts a body. -/
private theorem Deciding.of_goOn (h : Deciding program i base c.2) :
    Deciding program i base (goOn around c).2 ∨
      ∃ span, Running program i span base (goOn around c).2 := by
  cases ht : turn around c with
  | none =>
    rw [goOn_of_turn_eq_none ht]
    exact .inl h
  | some d =>
    rw [goOn, ht, Option.getD_some]
    exact h.of_turn ht

/-- A turn stays in the body, as long as there is more on the stack than before the conditional. -/
private theorem Running.of_goOn {span : Span} (h : Running program i span base c.2)
    (hclosed : Closed program span) (hne : base.length < c.2.length) :
    Running program i span base (goOn around c).2 := by
  cases ht : turn around c with
  | none => rwa [goOn_of_turn_eq_none ht]
  | some d =>
    rw [goOn, ht, Option.getD_some]
    exact h.of_turn hclosed ht hne

end Phases

section Conditional

variable (around : Surroundings) (s : RunState) {f : Frame program.size}
  (rest : List (Frame program.size)) {b : Branches} (hlt : f.position < f.span.stop)
  (hb : program.Decides f.position b)
  (hclosed : ∀ span, Reached program f.position span → Closed program span)
include hlt hb hclosed

/-- **While a conditional is not done**, a clause decides next or one stretch of lines is run. -/
theorem exists_phases : ∃ base : List (Frame program.size), base.length = rest.length + 1 ∧
    ∀ n, Busy around (s, f :: rest) (n + 1) →
      Deciding program f.position base ((goOn around)^[n + 1] (s, f :: rest)).2 ∨
        ∃ span, Running program f.position span base ((goOn around)^[n + 1] (s, f :: rest)).2 := by
  -- the first turn leaves the stack as it is, or fixes what lies below for as long as it lasts
  have hidle {frames : List (Frame program.size)}
      (hframes : (goOn around (s, f :: rest)).2 = frames)
      (hlen : frames.length = rest.length + 1) (n : Nat) :
      ¬ Busy around (s, f :: rest) (n + 1) := fun hbusy => by
    have hlonger := hbusy 1 (Nat.le_refl 1) (Nat.succ_le_succ (Nat.zero_le n))
    rw [Function.iterate_one, hframes, hlen] at hlonger
    exact Nat.lt_irrefl _ hlonger
  cases ht : turn around (s, f :: rest) with
  | none =>
    have hgo := congrArg Prod.snd (goOn_of_turn_eq_none ht)
    exact ⟨f :: rest, rfl, fun n hbusy => absurd hbusy (hidle hgo rfl n)⟩
  | some d =>
    have hgo : goOn around (s, f :: rest) = d := by rw [goOn, ht, Option.getD_some]
    obtain hd | ⟨f', -, -, -, hd⟩ := turn_conditional ht hlt .here hb
    · exact ⟨f :: rest, rfl, fun n hbusy => absurd hbusy (hidle (hgo ▸ hd) rfl n)⟩
    refine ⟨f' :: rest, rfl, fun n => ?_⟩
    rcases hd with hd | hd
    · exact fun hbusy => absurd hbusy (hidle (hgo ▸ hd) rfl n)
    induction n with
    | zero =>
      intro _
      rw [Function.iterate_one, hgo]
      exact hd [] (f' :: rest) rfl (List.forall_mem_nil _)
    | succ n ih =>
      intro hbusy
      rw [Function.iterate_succ_apply']
      rcases ih (hbusy.mono (Nat.le_succ _)) with hphase | ⟨span, hphase⟩
      · exact hphase.of_goOn
      · exact .inr ⟨span, hphase.of_goOn (hclosed span hphase.reached)
          (hbusy (n + 1) (Nat.succ_le_succ (Nat.zero_le n)) (Nat.le_succ _))⟩

end Conditional

/-- So do any number of turns. -/
private theorem Running.of_iterate {i : Nat} {base : List (Frame program.size)} {c : Config program}
    {span : Span} {m n : Nat} (h : Running program i span base ((goOn around)^[m] c).2)
    (hclosed : Closed program span) (hbase : base.length = c.2.length) (hm : 1 ≤ m) (hmn : m ≤ n)
    (hbusy : Busy around c n) : Running program i span base ((goOn around)^[n] c).2 := by
  obtain ⟨k, rfl⟩ := Nat.exists_eq_add_of_le hmn
  induction k with
  | zero => exact h
  | succ k ih =>
    have hprevious := ih (Nat.le_add_right m k) (hbusy.mono (Nat.le_succ _))
    rw [← Nat.add_assoc, Function.iterate_succ_apply']
    refine hprevious.of_goOn hclosed ?_
    rw [hbase]
    exact hbusy (m + k) (Nat.le_trans hm (Nat.le_add_right m k)) (Nat.le_succ _)

/-- Of all these bodies, one at most has statements that are carried out before the next statement
and all that it opens are done. -/
def RunsOneOf (around : Surroundings) (c : Config program) (bodies : List Span) : Prop :=
  ∀ (m n p q : Nat) (body body' : Span), Busy around c m → Busy around c n →
    Executes ((goOn around)^[m] c) p → Executes ((goOn around)^[n] c) q →
    body ∈ bodies → body' ∈ bodies → body.Has p → body'.Has q → body = body'

section Lines

variable {lines : List Line} {s : RunState} {f : Frame (Program.ofLines lines).size}
  {rest : List (Frame (Program.ofLines lines).size)} {b : Branches}

/-- What holds of two statements in their order holds of them in any order. -/
private theorem runsOneOf_of_le {c : Config program} {bodies : List Span}
    (h : ∀ (m n p q : Nat) (body body' : Span), m ≤ n → Busy around c n →
      Executes ((goOn around)^[m] c) p → Executes ((goOn around)^[n] c) q →
      body ∈ bodies → body' ∈ bodies → body.Has p → body'.Has q → body = body') :
    RunsOneOf around c bodies := by
  intro m n p q body body' hm hn hp hq hbody hbody' hhas hhas'
  rcases Nat.le_total m n with hmn | hnm
  · exact h m n p q body body' hmn hn hp hq hbody hbody' hhas hhas'
  · exact (h n m q p body' body hnm hm hq hp hbody' hbody hhas' hhas).symm

/-- A conditional whose clauses but the last are read as conditionals, and whose bodies hold whole
blocks, runs one body at most. -/
private theorem runsOneOf_bodies (hlt : f.position < f.span.stop)
    (hb : (Program.ofLines lines).Decides f.position b)
    (hchains : ∀ c ∈ b.clauses.dropLast, (Program.ofLines lines).Chains c)
    (hclosed : ∀ body ∈ b.bodies f.position, Closed (.ofLines lines) body) :
    RunsOneOf around (s, f :: rest) (b.bodies f.position) := by
  have hmem := (reached_mem_bodies_iff hb).mpr hchains
  obtain ⟨base, hbase, hphases⟩ := exists_phases around s rest hlt hb fun span hspan =>
    hclosed span (hmem span hspan)
  refine runsOneOf_of_le fun m n p q body body' hmn hbusy hp hq hbody hbody' hhas hhas' => ?_
  -- the earlier statement is one of a body, so the conditional has been decided before it
  cases m with
  | zero =>
    obtain ⟨-, g, rest', hstack, rfl, -⟩ := hp
    obtain ⟨rfl, -⟩ := List.cons.inj hstack
    exact absurd hhas (Leads.here.not_has hb hbody)
  | succ m =>
    rcases hphases m (hbusy.mono hmn) with hphase | ⟨span, hphase⟩
    · exact absurd hhas ((hphase.leads hp).not_has hb hbody)
    have hlonger {k : Nat} (hk : 1 ≤ k) (hkn : k ≤ n) :
        base.length < ((goOn around)^[k] (s, f :: rest)).2.length := by
      rw [hbase]
      exact hbusy k hk hkn
    have hm : 1 ≤ m + 1 := Nat.succ_le_succ (Nat.zero_le m)
    have hspan := hmem span hphase.reached
    have hlater := hphase.of_iterate (hclosed span hspan) hbase hm hmn hbusy
    have hbody := hb.inOrder.body_unique hspan hbody (hphase.has hp (hlonger hm hmn)) hhas
    have hbody' := hb.inOrder.body_unique hspan hbody'
      (hlater.has hq (hlonger (Nat.le_trans hm hmn) (Nat.le_refl n))) hhas'
    exact hbody.symm.trans hbody'

end Lines

/-- **When a conditional runs one branch.** What it runs is always one of its bodies if and only if
every clause but the last is read as a conditional. If so, and if no body holds a part of a block
only, then whenever a run comes to the conditional, statements of one body at most are carried out
until it is done. -/
theorem conditional_runs_one_body (lines : List Line) (i : Nat) (b : Branches)
    (hb : (Program.ofLines lines).Decides i b) :
    ((∀ span, Reached (.ofLines lines) i span → span ∈ b.bodies i) ↔
      ∀ c ∈ b.clauses.dropLast, (Program.ofLines lines).Chains c) ∧
    ((∀ c ∈ b.clauses.dropLast, (Program.ofLines lines).Chains c) →
      (∀ body ∈ b.bodies i, Closed (.ofLines lines) body) →
      ∀ (around : Surroundings) (s : RunState) (f : Frame (Program.ofLines lines).size)
        (rest : List (Frame (Program.ofLines lines).size)), f.position = i → i < f.span.stop →
        RunsOneOf around (s, f :: rest) (b.bodies i)) := by
  refine ⟨reached_mem_bodies_iff hb, ?_⟩
  rintro hchains hclosed around s f rest rfl hlt
  exact runsOneOf_bodies hlt hb hchains hclosed

/-- A conditional with a clause of either kind. -/
def chainedLines : List Line :=
  [⟨1, "Si x Entonces".toList⟩, ⟨2, "Escribir 1".toList⟩, ⟨3, "SiNo Si y Entonces".toList⟩,
    ⟨4, "Escribir 2".toList⟩, ⟨5, "SiNo".toList⟩, ⟨6, "Escribir 3".toList⟩, ⟨7, "FinSi".toList⟩]

private theorem decides_chainedLines :
    (Program.ofLines chainedLines).Decides 0 ⟨[⟨true, 2⟩, ⟨false, 4⟩], 6⟩ :=
  ⟨_, _, _, rfl⟩

/-- Each of the bodies is a line that opens nothing. -/
private theorem closed_chainedLines : ∀ body ∈ [⟨1, 2⟩, ⟨3, 4⟩, ⟨5, 6⟩],
    Closed (.ofLines chainedLines) body := by
  have houtput {p : Nat} {l : Line} {source : Text}
      (hp : (Program.ofLines chainedLines).statements[p]? = some ⟨l, .output source⟩) :
      Closed (.ofLines chainedLines) ⟨p, p + 1⟩ := by
    intro q hq st hst
    obtain rfl : p = q := Nat.le_antisymm hq.1 (Nat.le_of_lt_succ hq.2)
    obtain rfl := Option.some.inj (hp.symm.trans hst)
    trivial
  simp only [List.forall_mem_cons]
  exact ⟨houtput rfl, houtput rfl, houtput rfl, List.forall_mem_nil _⟩

/-- A conditional with three bodies, wherever a run comes to it: exactly one of them is run. -/
theorem conditional_runs_one_body_chained :
    (Program.ofLines chainedLines).Decides 0 ⟨[⟨true, 2⟩, ⟨false, 4⟩], 6⟩ ∧
      (∀ span, Reached (.ofLines chainedLines) 0 span → span ∈ [⟨1, 2⟩, ⟨3, 4⟩, ⟨5, 6⟩]) ∧
      ∀ (around : Surroundings) (s : RunState) (f : Frame (Program.ofLines chainedLines).size)
        (rest : List (Frame _)), f.position = 0 → 0 < f.span.stop →
        RunsOneOf around (s, f :: rest) [⟨1, 2⟩, ⟨3, 4⟩, ⟨5, 6⟩] := by
  have hone := conditional_runs_one_body chainedLines 0 _ decides_chainedLines
  have hchains : ∀ c ∈ [(⟨true, 2⟩ : Clause)], (Program.ofLines chainedLines).Chains c :=
    List.forall_mem_singleton.mpr rfl
  exact ⟨decides_chainedLines, hone.1.mpr hchains, hone.2 hchains closed_chainedLines⟩

end Machine

namespace Structured

open Machine

/-- A conditional with two clauses `SiNo`. -/
def twoElse : Text :=
  "Si FALSO Entonces\nEscribir \"a\"\nSiNo\nEscribir \"b\"\nSiNo\nEscribir \"c\"\nFinSi".toList

def twoElseLines : List Line :=
  [⟨1, "Si FALSO Entonces".toList⟩, ⟨2, "Escribir \"a\"".toList⟩, ⟨3, "SiNo".toList⟩,
    ⟨4, "Escribir \"b\"".toList⟩, ⟨5, "SiNo".toList⟩, ⟨6, "Escribir \"c\"".toList⟩,
    ⟨7, "FinSi".toList⟩]

private theorem ofSource_twoElse : Line.ofSource twoElse = twoElseLines := by
  decide +kernel

/-- A simple line does what its statement does. -/
private theorem carries_of_isSimple {lines ls : List Line} {around : Surroundings} {p number : Nat}
    {text : Text} {a : Action} (h : lines.drop p = ⟨number, text⟩ :: ls)
    (ha : Action.read lines p text = a) (hsimple : IsSimple a) :
    Carries lines around p (p + 1) (p + 1) (perform around number (simple a) fun _ => id) := by
  refine carries_statement h ha (hsimple.resume_eq p) fun hfits => (hsimple.alike hfits).mono ?_
  rintro _ _ rfl _ _
  rfl

/-- What the lines behind the first `SiNo` do. -/
def behindElse (s : RunState) : RunState :=
  perform .unattended 6 (simple (.output "\"c\"".toList)) (fun _ => id)
    (perform .unattended 5 (simple .skip) (fun _ => id)
      (perform .unattended 4 (simple (.output "\"b\"".toList)) (fun _ => id) s))

private theorem realizes_behindElse : Realizes twoElseLines .unattended ⟨3, 6⟩ behindElse := by
  have hb : Carries twoElseLines .unattended 3 4 4 _ :=
    carries_of_isSimple (a := .output "\"b\"".toList) rfl rfl trivial
  have hskip : Carries twoElseLines .unattended 4 5 5 _ :=
    carries_of_isSimple (a := .skip) rfl rfl trivial
  have hc : Carries twoElseLines .unattended 5 6 6 _ :=
    carries_of_isSimple (a := .output "\"c\"".toList) rfl rfl trivial
  exact ((hb.trans hskip (by decide) (by decide) (by decide)).trans hc (by decide) (by decide)
    (by decide)).realizes (Nat.le_refl 6)

/-- Where the condition does not hold, all that stands behind the first `SiNo` is run. -/
private theorem exists_carries_twoElse : ∃ m, Carries twoElseLines .unattended 0 7 1
    (perform .unattended 1 (test "Si ".toList "FALSO".toList) fun holds =>
      if holds then m else behindElse) := by
  have hread : Action.read twoElseLines 0 "Si FALSO Entonces".toList =
      .conditional "FALSO".toList ⟨[⟨false, 2⟩, ⟨false, 4⟩], 6⟩ false := rfl
  have ha : Carries twoElseLines .unattended 1 2 2 _ :=
    carries_of_isSimple (a := .output "\"a\"".toList) rfl rfl trivial
  refine ⟨perform .unattended 2 (simple (.output "\"a\"".toList)) fun _ => id,
    carries_statement rfl hread rfl fun hw => (alike_decide _ false hw).mono ?_⟩
  rintro _ holds rfl
  cases holds with
  | true => exact (ha.realizes (Nat.le_refl 2)).opens rfl
  | false =>
    obtain ⟨body, hbody, hpasses, hspan⟩ := elseBody_of_cons (.ofLines twoElseLines) hw rfl
    rw [if_neg Bool.false_ne_true, hbody]
    exact Realizes.opens (hspan ▸ realizes_behindElse) hpasses

private theorem scan_falso : scan "FALSO".toList = .ok ⟨[⟨.word "FALSO".toList, 1⟩], 6⟩ :=
  scan_of_tokensFrom (by decide +kernel)

private theorem run_condition_falso (scope : Scope) (drawn : Nat) :
    (Eval.condition "FALSO".toList).run scope drawn = (.ok false, ⟨drawn, #[]⟩) := by
  have htree : Expr.ofTokens [⟨.word "FALSO".toList, 1⟩] = .ok (.bool false) := rfl
  rw [Eval.condition, Eval.expression, Grammar.parse_eq_of_scan scan_falso, htree]
  rfl

private theorem run_evaluate_falso :
    (Exec.evaluate (Eval.condition "FALSO".toList)).run .unattended .initial =
      (.ok false, .initial) := by
  exact Exec.run_evaluate_of_quiet (run_condition_falso _ _)

/-- **Two bodies of one conditional.** Behind the first `SiNo` the second one does not count: the
bodies of both are run. -/
theorem executeSource_twoElse :
    ((Program.ofSource twoElse).Decides 0 ⟨[⟨false, 2⟩, ⟨false, 4⟩], 6⟩ ∧
      Branches.bodies 0 ⟨[⟨false, 2⟩, ⟨false, 4⟩], 6⟩ = [⟨1, 2⟩, ⟨3, 4⟩, ⟨5, 6⟩]) ∧
    (executeSource .unattended twoElse).output = #["b".toList, "c".toList] := by
  rw [executeSource, Program.ofSource, ofSource_twoElse]
  refine ⟨⟨⟨_, _, _, rfl⟩, rfl⟩, ?_⟩
  obtain ⟨m, hcarries⟩ := exists_carries_twoElse
  rw [execute_of_carries hcarries (by decide) (by decide), perform, if_neg (by decide), test,
    Exec.run_bind_ok run_evaluate_falso]
  change (close (behindElse { RunState.initial with
    trace := RunState.initial.trace.add .decision "Si FALSO".toList })).output = _
  decide +kernel

end Structured

end Pseudocode
