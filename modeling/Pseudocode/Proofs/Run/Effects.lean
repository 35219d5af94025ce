import Mathlib.Logic.Relation
import Pseudocode.Proofs.Run.Turns

/-!
# The effects of a run

What a run does is put together from a few primitives: it evaluates, changes variables, asks, adds
to the trace and writes. `Exec.Composed p` says that a part of a run is put together from them in
such a way that

* it changes variables and asks questions only as the `Permit` `p` says,
* it adds to the trace only what stands inside of one, and an output node together with its line of
  output, and
* of what surrounds it and of what happened before, it looks at nothing but the variables and the
  limit of the loops, so that the observer and the source of input reach it by no other way.

Every statement and every pass is so composed (`composed_statement`, `composed_nextPass`), with a
permit that can be read off the statement. A property of runs is then a matter of the primitives
alone: of what each of them does to the state (`Effect`, `Composed.effects`), or of how each of them
behaves in two runs side by side.

`Machine.proceed` is all that a turn of the main loop carries out, as one part of a run.
-/

namespace Pseudocode

/-- What a part of a run may do: the changes of variables, and the questions. -/
structure Permit where
  changes : Change → Prop
  asks : Text → Prop

/-- The question for the value of a variable. -/
def promptFor (name : Text) : Text := "Ingrese valor para ".toList ++ name ++ [':']

/-- What a statement may do. -/
def Action.permit : Action → Permit
  | declare names type => ⟨fun c => ∃ name ∈ names, c = .declare name type, fun _ => False⟩
  | dimension arrays _ => ⟨fun c => ∃ p ∈ arrays, ∃ n, c = .dimension p.1 n, fun _ => False⟩
  | input names _ => ⟨fun c => ∃ name ∈ names, ∃ value, c = .set name value true,
      fun prompt => ∃ name ∈ names, prompt = promptFor name⟩
  | assign _ name _ _ => ⟨fun c => (∃ value, c = .set name value true) ∨
      ∃ index value, c = .setElement name index value, fun _ => False⟩
  | _ => ⟨fun _ => False, fun _ => False⟩

/-- What starting a pass may do. -/
def Passes.permit : Passes → Permit
  | counted counter _ _ _ _ => ⟨fun c => ∃ n, c = .define counter .integer (.int n), fun _ => False⟩
  | _ => ⟨fun _ => False, fun _ => False⟩

/-- The nodes that are added to a trace alone. The start and the end stand at its ends, and an
output node comes with a line of output. -/
def NodeKind.IsInner (kind : NodeKind) : Prop := kind = .process ∨ kind = .decision ∨ kind = .input

instance (kind : NodeKind) : Decidable kind.IsInner :=
  inferInstanceAs (Decidable (kind = .process ∨ kind = .decision ∨ kind = .input))

namespace Exec

/-- A part of a run that is put together from the primitives, within a permit. -/
inductive Composed (p : Permit) : {α : Type} → Exec α → Prop where
  | pure {α : Type} (a : α) : Composed p (Pure.pure a : Exec α)
  | throw {α : Type} (fault : Fault) : Composed p (MonadExcept.throw fault : Exec α)
  | bind {α β : Type} {e : Exec α} {k : α → Exec β} : Composed p e → (∀ a, Composed p (k a)) →
      Composed p (e >>= k)
  /-- It may look at the variables. -/
  | look {β : Type} {k : RunState → Exec β} : (∀ s t, s.store = t.store → k s = k t) →
      (∀ s, Composed p (k s)) → Composed p (get >>= k)
  /-- It may look at the limit of the loops. -/
  | limit {β : Type} {k : Surroundings → Exec β} :
      (∀ a b, a.maxPasses = b.maxPasses → k a = k b) → (∀ a, Composed p (k a)) →
      Composed p (read >>= k)
  | evaluate {α : Type} (e : Eval α) : Composed p (evaluate e)
  | update {change : Change} : p.changes change → Composed p (update change)
  | ask {prompt : Text} : p.asks prompt → Composed p (ask prompt)
  | addNode {kind : NodeKind} (label : Text) : kind.IsInner → Composed p (addNode kind label)
  | write (line label : Text) : Composed p (write line >>= fun _ => addNode .output label)

/-! ### Statements and passes are composed -/

section Statements

variable {α : Type} {p : Permit}

private theorem Composed.ofExcept (x : Except Fault α) : Composed p (Exec.ofExcept x) := by
  cases x with
  | ok a => exact .pure a
  | error fault => exact .throw fault

/-- A loop over a list is composed if its body is, for the members of the list. -/
private theorem Composed.forIn {γ : Type} (l : List γ) {body : γ → PUnit → Exec (ForInStep PUnit)}
    (h : ∀ c ∈ l, ∀ u, Composed p (body c u)) : Composed p (ForIn.forIn l PUnit.unit body) := by
  induction l with
  | nil => exact .pure _
  | cons c rest ih =>
    rw [List.forIn_cons]
    refine .bind (h c List.mem_cons_self _) fun step => ?_
    cases step with
    | done _ => exact .pure _
    | yield _ => exact ih fun d hd => h d (List.mem_cons_of_mem c hd)

/-- Taking a value for an integer has no effect but a fault. -/
private theorem composed_integer (value : Value) (source : Text) :
    Composed p (integer value source) := by
  have refuse : Composed p (do
      let shown ← ofExcept value.display
      throw (.within source (.notAnInteger shown)) : Exec Int) :=
    .bind (.ofExcept _) fun _ => .throw _
  cases value with
  | number n =>
    refine .bind (.ofExcept _) fun finite => ?_
    cases finite with
    | false => exact refuse
    | true => exact .ofExcept _
  | _ => exact refuse

private theorem composed_integerOf (source : Text) : Composed p (integerOf source) :=
  .bind (.evaluate _) fun _ => composed_integer _ _

private theorem composed_stepOf (step : Option Text) : Composed p (stepOf step) := by
  cases step with
  | none => exact .pure _
  | some source =>
    refine .bind (composed_integerOf source) fun n => ?_
    split
    · exact .pure _
    · exact .throw _

/-- A definition defines its variables, one after the other. -/
private theorem composed_declare (names : List Text) (type : Text) :
    Composed (Action.declare names type).permit (declare names type) :=
  .bind (.forIn _ fun name hname _ => .bind (.update ⟨name, hname, rfl⟩) fun _ => .pure _)
    fun _ => .addNode _ (by decide)

/-- A dimension defines its arrays, one after the other. -/
private theorem composed_dimension (arrays : List (Text × Text)) (source : Text) :
    Composed (Action.dimension arrays source).permit (dimension arrays source) :=
  .bind (.forIn _ fun p hp _ => .bind (composed_integerOf p.2) fun n =>
    .bind (.update ⟨p, hp, n, rfl⟩) fun _ => .pure _) fun _ => .addNode _ (by decide)

/-- Reading a variable asks, and then sets the variable. -/
private theorem composed_readInto {names : List Text} {source name : Text} (h : name ∈ names) :
    Composed (Action.input names source).permit (readInto name) :=
  .look (fun s t hst => by rw [hst]) fun _ => .bind (.ofExcept _) fun _ =>
    .bind (.ask ⟨name, h, rfl⟩) fun _ => .bind (.ofExcept _) fun value =>
      .update ⟨name, h, value, rfl⟩

/-- `Leer` asks for its variables, one after the other, and adds a node. -/
private theorem composed_input (names : List Text) (source : Text) :
    Composed (Action.input names source).permit (input names source) :=
  .bind (.forIn _ fun _ hname _ => .bind (composed_readInto hname) fun _ => .pure _)
    fun _ => .addNode _ (by decide)

/-- `Escribir` writes one line and adds a node. -/
private theorem composed_output (source : Text) : Composed p (output source) :=
  .bind (.evaluate _) fun _ => .write _ _

private theorem composed_startWhile (condition : Text) : Composed p (startWhile condition) :=
  .bind (.addNode _ (by decide)) fun _ => .limit (fun a b hab => by rw [hab]) fun _ => .pure _

private theorem composed_startFor (counter first last : Text) (step : Option Text) :
    Composed p (startFor counter first last step) :=
  .bind (composed_integerOf _) fun _ => .bind (composed_integerOf _) fun _ =>
    .bind (composed_stepOf _) fun _ => .bind (.addNode _ (by decide)) fun _ => .pure _

private theorem composed_choose {i size : Nat} (subject : Text) (cases : Cases)
    (h : cases.Within (i + 1) size) : Composed p (choose subject cases h) := by
  refine .bind (.evaluate _) fun value => .bind (.addNode _ (by decide)) fun _ => ?_
  split
  · exact .throw _
  · exact .bind (.ofExcept _) fun _ => .bind (.addNode _ (by decide)) fun _ => .pure _
  · split
    · exact .pure _
    · exact .bind (.addNode _ (by decide)) fun _ => .pure _

private theorem composed_decide {i size : Nat} (program : Program) (condition : Text) (b : Branches)
    (chained : Bool) (h : b.Within (i + 1) size) :
    Composed p (decide program condition b chained h) :=
  .bind (.evaluate _) fun _ => .bind (.addNode _ (by decide)) fun _ => .pure _

/-- An assignment evaluates, sets one variable or one element, and adds a node. -/
private theorem composed_assign (target name : Text) (index : Option Text) (source : Text) :
    Composed (Action.assign target name index source).permit (assign target name index source) := by
  cases index with
  | none =>
    refine .look (fun s t hst => by simp only [hst]) fun _ => .bind (.ofExcept _) fun _ =>
      .bind (.evaluate _) fun value => ?_
    exact .bind (.update (.inl ⟨value, rfl⟩)) fun _ => .addNode _ (by decide)
  | some index =>
    refine .look (fun s t hst => by rw [hst]) fun s => ?_
    -- an unknown name is refused before anything is evaluated
    split
    · exact .bind (.evaluate _) fun i => .bind (.evaluate _) fun value =>
        .bind (.update (.inr ⟨i, value, rfl⟩)) fun _ => .addNode _ (by decide)
    · exact .bind (.throw _) fun _ => .bind (.evaluate _) fun i => .bind (.evaluate _) fun value =>
        .bind (.update (.inr ⟨i, value, rfl⟩)) fun _ => .addNode _ (by decide)

/-- **Every statement is composed**, within its permit. -/
theorem composed_statement {i size : Nat} (program : Program) (a : Action) (h : a.Fits i size) :
    Composed a.permit (statement program a h) := by
  cases a with
  | skip | marker => exact .pure _
  | declare names type => exact .bind (composed_declare names type) fun _ => .pure _
  | dimension arrays source => exact .bind (composed_dimension arrays source) fun _ => .pure _
  | input names source => exact .bind (composed_input names source) fun _ => .pure _
  | output source => exact .bind (composed_output source) fun _ => .pure _
  | whileLoop condition body => exact .bind (composed_startWhile condition) fun _ => .pure _
  | forLoop counter first last step body =>
    exact .bind (composed_startFor counter first last step) fun _ => .pure _
  | choice subject cases => exact composed_choose subject cases h
  | conditional condition b chained => exact composed_decide program condition b chained h
  | assign target name index source =>
    exact .bind (composed_assign target name index source) fun _ => .pure _

/-- **Every start of a pass is composed**, within its permit. -/
theorem composed_nextPass (passes : Passes) : Composed passes.permit (nextPass passes) := by
  match passes with
  | .once true | .once false | .whilst _ 0 => exact .pure _
  | .whilst condition (left + 1) =>
    refine .bind (.evaluate _) fun holds => ?_
    cases holds <;> exact .pure _
  | .counted counter next last step h =>
    rw [nextPass]
    split
    · exact .bind (.update ⟨next, rfl⟩) fun _ => .pure _
    · exact .pure _

end Statements

/-! ### Effects -/

/-- What a primitive does to the state of a run. -/
inductive Effect (around : Surroundings) (p : Permit) (s : RunState) : RunState → Prop where
  /-- Random numbers are drawn, and messages are added. -/
  | evaluate (drawn : Nat) (messages : Array Text) :
      Effect around p s { s with drawn, errors := s.errors ++ messages }
  /-- The variables change, and there is no observer. -/
  | change {change : Change} {store : Store} : p.changes change →
      s.store.apply change = .ok store → around.notices = none → Effect around p s { s with store }
  /-- The variables change, and the observer is told. -/
  | tell {change : Change} {store : Store} {notices : Nat → Notice} : p.changes change →
      s.store.apply change = .ok store → around.notices = some notices →
      Effect around p s { s with
        store
        snapshots := s.snapshots.push store
        cancelled := s.cancelled || (notices s.snapshots.size).cancels }
  /-- The source of input is asked. -/
  | ask {prompt : Text} {replies : Nat → Reply} : p.asks prompt → around.replies = some replies →
      Effect around p s { s with
        prompts := s.prompts.push prompt
        cancelled := s.cancelled || (replies s.prompts.size).cancels }
  | addNode {kind : NodeKind} (label : Text) : kind.IsInner →
      Effect around p s { s with trace := s.trace.add kind label }
  | write (line label : Text) : Effect around p s { s with
      output := s.output.push line
      trace := s.trace.add .output label }

open Relation (ReflTransGen)

/-- **A part of a run does nothing but what its primitives do**, however it ends. -/
theorem Composed.effects {α : Type} {p : Permit} {e : Exec α} (h : Composed p e)
    (around : Surroundings) (s : RunState) :
    ReflTransGen (Effect around p) s (e.run around s).2 := by
  induction h generalizing s with
  | pure a => exact .refl
  | throw fault => exact .refl
  | @bind α β e k _ _ ihe ihk =>
    have he := ihe s
    rw [run_bind]
    rcases hr : e.run around s with ⟨fault | a, s'⟩
    · rw [hr] at he
      exact he
    · rw [hr] at he
      exact he.trans (ihk a s')
  | look _ _ ih =>
    rw [run_bind_ok run_get]
    exact ih s s
  | limit _ _ ih =>
    rw [run_bind_ok run_read]
    exact ih around s
  | evaluate e =>
    rw [run_evaluate]
    exact .single (.evaluate _ _)
  | update hchange =>
    rw [run_update]
    cases happly : s.store.apply _ with
    | error fault => exact .refl
    | ok store =>
      simp only [run_notify]
      cases hnotices : around.notices with
      | none => exact .single (.change hchange happly hnotices)
      | some notices => exact .single (.tell hchange happly hnotices)
  | ask hask =>
    rw [run_ask]
    cases hreplies : around.replies with
    | none => exact .refl
    | some replies => exact .single (.ask hask hreplies)
  | addNode label hkind => exact .single (.addNode label hkind)
  | write line label => exact .single (.write line label)

end Exec

namespace Machine

open Relation (ReflTransGen)
open Exec (Composed Effect)

variable {program : Program} {around : Surroundings}

/-! ### Turns as parts of a run -/

/-- A line of a frame is a line of the program. -/
theorem position_lt_size {f : Frame program.size} (h : f.position < f.span.stop) :
    f.position < program.statements.size :=
  Nat.lt_of_lt_of_le h f.stop_le

/-- What a frame may do in its next turn. -/
def permit (f : Frame program.size) : Permit :=
  if h : f.position < f.span.stop then
    have hp := position_lt_size h
    program.statements[f.position].action.permit
  else f.passes.permit

/-- A frame with lines left may do what its next statement may do. -/
theorem permit_of_lt {f : Frame program.size} (h : f.position < f.span.stop) {st : Statement}
    (hst : program.statements[f.position]? = some st) : permit f = st.action.permit := by
  obtain ⟨_, rfl⟩ := Array.getElem?_eq_some_iff.mp hst
  exact dif_pos h

/-- A frame without lines left may do what its passes may do. -/
theorem permit_of_le {f : Frame program.size} (h : f.span.stop ≤ f.position) :
    permit f = f.passes.permit :=
  dif_neg (Nat.not_lt.mpr h)

/-- A frame with lines left has a next statement. -/
theorem exists_statement {f : Frame program.size} (h : f.position < f.span.stop) :
    ∃ st, program.statements[f.position]? = some st :=
  ⟨_, Array.getElem?_eq_getElem (position_lt_size h)⟩

/-- The number of the line that a fault in the next turn of a frame is noted down for. -/
def lineOf (f : Frame program.size) : Nat :=
  if h : f.position < f.span.stop then
    have hp := position_lt_size h
    program.statements[f.position].line.number
  else f.line

/-- The next statement of a frame fits into the program. -/
theorem fits_position {f : Frame program.size} (hp : f.position < program.statements.size) :
    program.statements[f.position].action.Fits f.position program.statements.size :=
  program.fits f.position hp

/-- A frame when it has carried out its next statement. -/
def behind {size : Nat} (f : Frame size) (a : Action) (h : a.Fits f.position size) : Frame size :=
  f.goto (a.resume f.position) (Nat.le_of_lt (Action.lt_resume h))

/-- The frame of a body that a statement opens. -/
def opened {i size : Nat} (body : Body i size) (line : Nat) : Frame size :=
  Frame.fresh body.span body.passes line ⟨Nat.zero_le _, body.inside.2.1, body.inside.2.2⟩

/-- What the frame on top of a stack carries out in its turn, and the stack that it leaves. -/
def proceed (f : Frame program.size) (rest : List (Frame program.size)) :
    Exec (List (Frame program.size)) :=
  if h : f.position < f.span.stop then
    have hp := position_lt_size h
    let st := program.statements[f.position]
    have hfits : st.action.Fits f.position program.statements.size := fits_position hp
    do
      match ← Exec.statement program st.action hfits with
      | none => return behind f st.action hfits :: rest
      | some body => return opened body st.line.number :: behind f st.action hfits :: rest
  else do
    match ← Exec.nextPass f.passes with
    | none => return rest
    | some passes => return f.restart passes.1 :: rest

/-- A frame in the middle of its lines carries out its next statement and nothing more. -/
theorem proceed_of_lt {f : Frame program.size} (h : f.position < f.span.stop) {st : Statement}
    (hst : program.statements[f.position]? = some st) (rest : List (Frame program.size)) :
    ∃ (hfits : st.action.Fits f.position program.size)
      (next : Option (Body f.position program.size) → List (Frame program.size)),
      proceed f rest = Exec.statement program st.action hfits >>= fun body => pure (next body) := by
  obtain ⟨hp, rfl⟩ := Array.getElem?_eq_some_iff.mp hst
  have hfits := fits_position hp
  refine ⟨hfits, fun body => body.elim (behind f _ hfits :: rest) fun body =>
    opened body program.statements[f.position].line.number :: behind f _ hfits :: rest, ?_⟩
  simp only [proceed, dif_pos h]
  refine bind_congr fun body => ?_
  cases body <;> rfl

/-- **A turn of a frame is composed** of effects that the frame is permitted to have. -/
theorem composed_proceed (f : Frame program.size) (rest : List (Frame program.size)) :
    Composed (permit f) (proceed f rest) := by
  unfold proceed permit
  split
  · refine .bind (Exec.composed_statement _ _ _) fun body => ?_
    cases body <;> exact .pure _
  · refine .bind (Exec.composed_nextPass _) fun passes => ?_
    cases passes <;> exact .pure _

/-- **A turn carries out one part of a run**, and notes down a fault in it. -/
theorem turn_eq (s : RunState) (f : Frame program.size) (rest : List (Frame program.size)) :
    turn around (s, f :: rest) =
      if s.halted then none
      else match (proceed f rest).run around s with
        | (.ok new, s') => some (s', new)
        | (.error fault, s') => some (s'.report (lineOf f) fault, f :: rest) := by
  rw [turn]
  congr 1
  by_cases h : f.position < f.span.stop
  · simp only [step, proceed, lineOf, dif_pos h, stepStatement, Exec.run_bind]
    rcases (Exec.statement program _ _).run around s with ⟨fault | _ | body, s'⟩ <;> rfl
  · simp only [step, proceed, lineOf, dif_neg h, stepPass, Exec.run_bind]
    rcases (Exec.nextPass f.passes).run around s with ⟨fault | _ | passes, s'⟩ <;> rfl

/-- **A turn does nothing but what its frame may do.** -/
theorem turn_effects {s : RunState} {f : Frame program.size} {rest : List (Frame program.size)}
    {d : Config program} (h : turn around (s, f :: rest) = some d) :
    ReflTransGen (Effect around (permit f)) s d.1 := by
  have heffects := (composed_proceed f rest).effects around s
  rw [turn_eq] at h
  split at h
  · cases h
  · rcases hrun : (proceed f rest).run around s with ⟨fault | new, s'⟩
    · rw [hrun] at h heffects
      obtain rfl := Option.some.inj h
      -- a fault adds its message, as an evaluation may do
      exact heffects.tail (.evaluate s'.drawn #[_])
    · rw [hrun] at h heffects
      obtain rfl := Option.some.inj h
      exact heffects

/-- One more turn goes on from where the turns before it have led. -/
theorem after_succ (around : Surroundings) (program : Program) (n : Nat) :
    after around program (n + 1) = goOn around (after around program n) :=
  Function.iterate_succ_apply' _ _ _

/-- What holds at the start of a run and survives every effect of a turn holds all along. -/
theorem after_induction {P : Config program → Prop} (hstart : P (start program))
    (hturn : ∀ s f rest d, P (s, f :: rest) → turn around (s, f :: rest) = some d → P d) (n : Nat) :
    P (after around program n) := by
  induction n with
  | zero => exact hstart
  | succ n ih =>
    rw [after_succ]
    rcases hafter : after around program n with ⟨s, _ | ⟨f, rest⟩⟩
    · rw [hafter] at ih
      exact ih
    · rw [hafter] at ih
      cases ht : turn around (s, f :: rest) with
      | none => rwa [goOn_of_turn_eq_none ht]
      | some d =>
        rw [goOn, ht, Option.getD_some]
        exact hturn s f rest d ih ht

end Machine

end Pseudocode
