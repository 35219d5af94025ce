import Pseudocode.Proofs.Run.Turns
import Pseudocode.Proofs.Tree.Basic

/-!
# Steps of the machine as parts of a run

The machine and the meaning of a tree are both made of `perform`: a step of the machine carries out
a statement, or asks for a pass, and goes on with a new stack (`run_statement`, `run_pass`). So to
compare the two, it is enough to compare what is carried out and how it goes on. What is carried
out differs only in what it results in, a body to put on the stack on the one side and a function
on states on the other; `Alike R` says that two parts of a run do the same to every state, fail
alike, and give results in the relation `R`.
-/

namespace Pseudocode.Structured

variable {α β γ δ : Type} {around : Surroundings} {number : Nat}

/-! ### Parts of a run with related results -/

/-- Outcomes that are the same but for their values, which are related. -/
inductive Outcomes (R : α → β → Prop) : Except Fault α × RunState → Except Fault β × RunState → Prop
  | ok {a : α} {b : β} (s : RunState) (h : R a b) : Outcomes R (.ok a, s) (.ok b, s)
  | error (fault : Fault) (s : RunState) : Outcomes R (.error fault, s) (.error fault, s)

/-- Parts of a run that do the same to every state, with related results. -/
def Alike (around : Surroundings) (R : α → β → Prop) (e : Exec α) (e' : Exec β) : Prop :=
  ∀ s, Outcomes R (e.run around s) (e'.run around s)

namespace Alike

/-- A part of a run is alike to itself. -/
theorem refl (e : Exec α) : Alike around Eq e e := by
  intro s
  rcases e.run around s with ⟨fault | a, s'⟩
  · exact .error fault s'
  · exact .ok s' rfl

/-- Values that are related are results that are alike. -/
theorem pure {R : α → β → Prop} {a : α} {b : β} (h : R a b) :
    Alike around R (Pure.pure a) (Pure.pure b) := fun s => .ok s h

/-- The same fault is alike to itself, whatever results are related. -/
theorem throw {R : α → β → Prop} (fault : Fault) :
    Alike around R (MonadExcept.throw fault) (MonadExcept.throw fault) := fun s => .error fault s

/-- Parts that are alike, one after the other, are alike. -/
private theorem bind {R : α → β → Prop} {S : γ → δ → Prop} {e : Exec α} {e' : Exec β}
    {k : α → Exec γ}
    {k' : β → Exec δ} (he : Alike around R e e') (hk : ∀ a b, R a b → Alike around S (k a) (k' b)) :
    Alike around S (e >>= k) (e' >>= k') := by
  intro s
  rw [Exec.run_bind, Exec.run_bind]
  have h := he s
  revert h
  generalize e.run around s = x
  generalize e'.run around s = y
  rintro (⟨s', h⟩ | ⟨fault, s'⟩)
  · exact hk _ _ h s'
  · exact .error fault s'

/-- Results that are related are related in every weaker way. -/
theorem mono {R S : α → β → Prop} {e : Exec α} {e' : Exec β} (he : Alike around R e e')
    (h : ∀ a b, R a b → S a b) : Alike around S e e' := by
  rw [← bind_pure e, ← bind_pure e']
  exact he.bind fun a b hab => .pure (h a b hab)

/-- What only makes something of the result at the end matters only to the relation. -/
theorem bind_left {R : α → β → Prop} {S : γ → β → Prop} {e : Exec α} {e' : Exec β}
    {k : α → Exec γ} (he : Alike around R e e')
    (hk : ∀ a b, R a b → Alike around S (k a) (Pure.pure b)) : Alike around S (e >>= k) e' := by
  rw [← bind_pure e']
  exact he.bind hk

/-- The same beginning leaves only the rests to be compared. -/
theorem bind_same {S : γ → δ → Prop} {e : Exec α} {k : α → Exec γ} {k' : α → Exec δ}
    (hk : ∀ a, Alike around S (k a) (k' a)) : Alike around S (e >>= k) (e >>= k') :=
  (refl e).bind fun a _ h => h ▸ hk a

end Alike

/-! ### Carrying out parts of a run -/

/-- Parts of a run that are alike can take each other's place, if they are gone on with alike. -/
theorem perform_alike {R : α → β → Prop} {e : Exec α} {e' : Exec β}
    {next : α → RunState → RunState} {next' : β → RunState → RunState} (he : Alike around R e e')
    (hnext : ∀ a b s, R a b → next a s = next' b s) (s : RunState) :
    perform around number e next s = perform around number e' next' s := by
  unfold perform
  split
  · rfl
  · have h := he s
    revert h
    generalize e.run around s = x
    generalize e'.run around s = y
    rintro (⟨s', h⟩ | ⟨fault, s'⟩)
    · exact hnext _ _ s' h
    · rfl

/-- What results in nothing new only hands the state on. -/
theorem perform_pure (a : α) (next : α → RunState → RunState) {s : RunState}
    (h : s.halted = true → next a s = s) : perform around number (pure a) next s = next a s := by
  unfold perform
  split
  · next hs => exact (h hs).symm
  · rfl

/-! ### Steps of the machine -/

section Machine

open Machine

variable {program : Program} {s : RunState} {f : Frame program.size}
  {rest : List (Frame program.size)}

/-- The machine goes on after a part of a run as after the rest of it. -/
theorem run_perform (e : Exec α) (next : α → RunState → RunState)
    (frames : List (Frame program.size)) :
    run around (perform around number e next s) frames =
      perform around number e (fun a t => run around (next a t) frames) s := by
  unfold perform
  split
  · next h => exact run_of_halted h frames
  · split
    · rfl
    · exact run_of_halted (RunState.halted_report _ _ _) frames

/-- The frame of a body that a statement opens. -/
def frameOf {i : Nat} (line : Nat) (b : Body i program.size) : Frame program.size :=
  .fresh b.span b.passes line ⟨Nat.zero_le _, b.inside.2.1, b.inside.2.2⟩

/-- The stack with the body on top that a statement opens, if it opens one. -/
def push {i : Nat} (line : Nat) (frames : List (Frame program.size)) :
    Option (Body i program.size) → List (Frame program.size)
  | none => frames
  | some b => frameOf line b :: frames

/-- **A frame that is in the middle of its lines carries out its next statement**, and goes on
behind it when the body is done that the statement opens. -/
theorem run_statement {st : Statement} (hst : program.statements[f.position]? = some st)
    (hlt : f.position < f.span.stop) (hfits : st.action.Fits f.position program.size) {q : Nat}
    (hq : st.action.resume f.position = q) (hle : f.position ≤ q) :
    run around s (f :: rest) =
      perform around st.line.number (Exec.statement program st.action hfits)
        (fun body t => run around t (push st.line.number (f.goto q hle :: rest) body)) s := by
  obtain ⟨hp, rfl⟩ := Array.getElem?_eq_some_iff.mp hst
  subst hq
  rw [run, perform, step, dif_pos hlt]
  congr 1
  rcases h : (Exec.statement program _ hfits).run around s with ⟨fault | _ | body, s'⟩
  all_goals have hrun : (Exec.statement program _ (program.fits _ hp)).run around s = _ := h
  · simp only [stepStatement, hrun]
  · simp only [stepStatement, hrun, push]
  · simp only [stepStatement, hrun]
    rfl

/-- **A frame that is through with its lines asks for its next pass**, and is taken off if there is
none. -/
theorem run_pass {passes : Passes} (hpasses : f.passes = passes) (hle : f.span.stop ≤ f.position) :
    run around s (f :: rest) =
      perform around f.line (Exec.nextPass passes)
        (fun pass t => run around t (match pass with
          | none => rest
          | some left => f.restart left.1 :: rest)) s := by
  subst hpasses
  rw [run, perform, step, dif_neg (Nat.not_lt.mpr hle)]
  congr 1
  rcases h : (Exec.nextPass f.passes).run around s with ⟨fault | _ | left, s'⟩
  all_goals simp only [stepPass, h]

end Machine

end Pseudocode.Structured
