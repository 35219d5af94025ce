import Mathlib.Data.List.Chain
import Pseudocode.Proofs.Run.Effects
import Pseudocode.Proofs.Store.History

/-!
# What the observer of the variables sees

Whatever a program does, and however the observer behaves, the snapshots that the observer was told
of are the whole story of the variables. With the empty store in front of them, which nobody is
told of, each of them is one change away from the next (`Store.Precedes`), and the last one is the
store as it is (`RunState.Watched`). This is an invariant of the effects of a run, so it holds also
where a statement changes several variables and fails in the middle.

Which keys can be new after a turn can be read off the statement or the pass that it carries out
(`Machine.Introduces`): only `Definir`, `Dimension` and a pass of `Para` define anything.
Assignments and `Leer` only alter what is there.

An observer that neither objects nor cancels is never noticed: a run with it and a run without an
observer go through the same states, but for the snapshots (`Composed.run_unwatched`).
-/

namespace Pseudocode

namespace Store

variable {s t : Store} {change : Change} {v : Variable} {key : Text}

/-- The second store is what one change may make of the first: its keys are the same, or there is
one more at the end; and at most one entry differs. -/
structure Precedes (s t : Store) : Prop where
  keys : s.keys <+: t.keys
  length : t.keys.length ≤ s.keys.length + 1
  entries : ∃ k : Nat, ∀ i : Nat, i ≠ k → t.entries[i]? = s.entries[i]?

private theorem precedes_set {i : Nat} {w : Variable} (hi : s.entries[i]? = some w)
    (hkey : w.key = v.key) :
    s.Precedes ⟨s.entries.set i v⟩ where
  keys := (keys_set hi hkey).symm ▸ List.prefix_rfl
  length := by rw [keys_set hi hkey]; exact Nat.le_succ _
  entries := ⟨i, fun _ hj => List.getElem?_set_ne hj.symm⟩

private theorem precedes_append (s : Store) (v : Variable) : s.Precedes ⟨s.entries ++ [v]⟩ where
  keys := by rw [keys_append]; exact List.prefix_append _ _
  length := by rw [keys_append, List.length_append, List.length_singleton]
  entries := by
    refine ⟨s.entries.length, fun i hi => ?_⟩
    rcases Nat.lt_or_gt_of_ne hi with hlt | hgt
    · exact List.getElem?_append_left hlt
    · have hlen : (s.entries ++ [v]).length ≤ i := by
        rw [List.length_append, List.length_singleton]
        exact hgt
      rw [List.getElem?_eq_none (Nat.le_of_lt hgt), List.getElem?_eq_none hlen]

/-- An alteration changes one entry at most, and adds one key at most. -/
private theorem Alters.precedes (h : s.Alters change v t) : s.Precedes t := by
  cases h with
  | rebind _ hi hkey => exact precedes_set hi hkey
  | append _ _ => exact precedes_append s v
  | set _ _ hi _ => exact precedes_set hi rfl
  | setElement hi _ _ _ _ => exact precedes_set hi rfl

/-- Only what a change defines can be new. -/
private theorem Alters.mem_keys (h : s.Alters change v t) (hkey : key ∈ t.keys) :
    key ∈ s.keys ∨ Defines change v ∧ v.key = key := by
  cases h with
  | rebind _ hi hw => exact .inl (keys_set hi hw ▸ hkey)
  | append hdefines _ =>
    rw [keys_append] at hkey
    exact (List.mem_append.mp hkey).imp id fun hv => ⟨hdefines, (List.mem_singleton.mp hv).symm⟩
  | set _ _ hi _ => exact .inl (keys_value hi _ ▸ hkey)
  | setElement hi _ _ _ _ => exact .inl (keys_value hi _ ▸ hkey)

end Store

open Relation (ReflTransGen)

namespace RunState

/-- The states of the store that the run has gone through, if an observer was told of them. -/
def stages (s : RunState) : List Store := .empty :: s.snapshots.toList

/-- What the observer was told of is the whole story of the store. -/
structure Watched (s : RunState) : Prop where
  last : s.stages.getLast? = some s.store
  steps : s.stages.IsChain Store.Precedes

/-- The observer is told of a store that is one change away from the last one. -/
private theorem Watched.tell {s t : RunState} (hs : s.Watched) (h : s.store.Precedes t.store)
    (htold : t.snapshots = s.snapshots.push t.store) : t.Watched := by
  have hstages : t.stages = s.stages ++ [t.store] := by simp [stages, htold]
  constructor
  · rw [hstages, List.getLast?_append]
    rfl
  · rw [hstages, List.isChain_append]
    -- only the place where the new stage joins the old ones is left
    refine ⟨hs.steps, .singleton _, fun a ha b hb => ?_⟩
    obtain rfl : a = s.store := Option.some.inj (ha.symm.trans hs.last)
    obtain rfl : t.store = b := Option.some.inj hb
    exact h

/-- The observer knows the store, or nothing has changed yet. -/
private theorem Watched.last_cases {s : RunState} (hs : s.Watched) :
    s.snapshots.back? = some s.store ∨ s.snapshots = #[] ∧ s.store = .empty := by
  have hlast := hs.last
  rw [stages, List.getLast?_cons] at hlast
  rw [← Array.getLast?_toList]
  cases h : s.snapshots.toList.getLast? with
  | none =>
    rw [h] at hlast
    have hnil : s.snapshots = #[] := by simpa using h
    exact .inr ⟨hnil, (Option.some.inj hlast).symm⟩
  | some t =>
    rw [h] at hlast
    exact .inl hlast

/-- Each snapshot is one change away from the next. -/
private theorem Watched.precedes {s : RunState} (hs : s.Watched) {i : Nat} {earlier later : Store}
    (hearlier : s.snapshots[i]? = some earlier) (hlater : s.snapshots[i + 1]? = some later) :
    earlier.Precedes later := by
  obtain ⟨hi, rfl⟩ := Array.getElem?_eq_some_iff.mp hlater
  obtain ⟨_, rfl⟩ := Array.getElem?_eq_some_iff.mp hearlier
  exact hs.steps.getElem (i + 1) (by simpa [stages] using hi)

/-- Forgets what the observer was told of. -/
def unwatched (s : RunState) : RunState := { s with snapshots := #[] }

end RunState

namespace Exec

open RunState (Watched)

variable {α : Type} {around : Surroundings} {p : Permit} {s t : RunState}

/-- What an effect does to the store: nothing, or a change that is permitted. -/
private theorem Effect.store (h : Effect around p s t) :
    t.store = s.store ∨ ∃ change, p.changes change ∧ s.store.apply change = .ok t.store := by
  cases h with
  | change hchange happly _ | tell hchange happly _ => exact .inr ⟨_, hchange, happly⟩
  | evaluate | ask | addNode | write => exact .inl rfl

/-- An effect leaves no key twice. -/
private theorem Effect.nodup_keys (h : Effect around p s t) (hs : s.store.keys.Nodup) :
    t.store.keys.Nodup := by
  rcases h.store with hstore | ⟨change, -, happly⟩
  · rwa [hstore]
  · obtain ⟨v, hdefine, -⟩ := Store.exists_alters_of_apply hs happly
    rw [hdefine]
    exact Store.nodup_define hs v

/-- Keys that differ still do after any number of effects. -/
theorem nodup_keys_of_effects (h : ReflTransGen (Effect around p) s t)
    (hs : s.store.keys.Nodup) : t.store.keys.Nodup := by
  induction h with
  | refl => exact hs
  | tail _ heffect ih => exact heffect.nodup_keys ih

/-- **A key that is new was defined by a change that is permitted.** -/
theorem exists_defines_of_effects (h : ReflTransGen (Effect around p) s t)
    (hs : s.store.keys.Nodup) {key : Text} (hkey : key ∈ t.store.keys) :
    key ∈ s.store.keys ∨ ∃ change v, p.changes change ∧ Store.Defines change v ∧ v.key = key := by
  induction h with
  | refl => exact .inl hkey
  | tail heffects heffect ih =>
    rcases heffect.store with hstore | ⟨change, hchange, happly⟩
    · exact ih (hstore ▸ hkey)
    · obtain ⟨v, -, halters⟩ :=
        Store.exists_alters_of_apply (nodup_keys_of_effects heffects hs) happly
      rcases halters.mem_keys hkey with hold | ⟨hdefines, hv⟩
      · exact ih hold
      · exact .inr ⟨change, v, hchange, hdefines, hv⟩

/-- With an observer, every effect on the store is told. -/
private theorem Effect.watched {notices : Nat → Notice} (hnotices : around.notices = some notices)
    (h : Effect around p s t) (hnodup : s.store.keys.Nodup) (hs : s.Watched) : t.Watched := by
  cases h with
  | change _ _ hnone => cases hnotices.symm.trans hnone
  | tell _ happly _ =>
    obtain ⟨v, -, halters⟩ := Store.exists_alters_of_apply hnodup happly
    exact hs.tell halters.precedes rfl
  | evaluate | ask | addNode | write => exact ⟨hs.last, hs.steps⟩

/-- **Whatever happens, the observer has seen it all.** -/
private theorem watched_of_effects {notices : Nat → Notice}
    (hnotices : around.notices = some notices)
    (h : ReflTransGen (Effect around p) s t) (hnodup : s.store.keys.Nodup) (hs : s.Watched) :
    t.Watched := by
  induction h with
  | refl => exact hs
  | tail heffects heffect ih =>
    exact heffect.watched hnotices (nodup_keys_of_effects heffects hnodup) ih

/-- **An observer that neither objects nor cancels is not noticed** by a part of a run. -/
theorem Composed.run_unwatched {e : Exec α} (h : Composed p e) (around : Surroundings)
    (s : RunState) :
    e.run { around with notices := none } s.unwatched =
      let r := e.run { around with notices := some fun _ => ⟨false, none⟩ } s
      (r.1, r.2.unwatched) := by
  induction h generalizing s with
  | pure | throw | addNode | write => rfl
  | @bind α β e k _ _ ihe ihk =>
    simp only [run_bind, ihe s]
    rcases e.run { around with notices := some fun _ => ⟨false, none⟩ } s with ⟨fault | a, s'⟩
    · rfl
    · exact ihk a s'
  | @look β k hlook _ ih =>
    rw [run_bind_ok run_get, run_bind_ok run_get, hlook s.unwatched s rfl]
    exact ih s s
  | @limit β k hlimit _ ih =>
    rw [run_bind_ok run_read, run_bind_ok run_read,
      hlimit { around with notices := none } { around with notices := some _ } rfl]
    exact ih _ s
  | evaluate e =>
    rw [run_evaluate, run_evaluate]
    rfl
  | update _ =>
    simp only [run_update, RunState.unwatched]
    cases s.store.apply _ with
    | error fault => rfl
    | ok store => simp [run_notify]
  | ask _ =>
    simp only [run_ask, RunState.unwatched]
    cases around.replies <;> rfl

end Exec

namespace Machine

open RunState (Watched)

variable {program : Program} {around : Surroundings}

/-! ### Which turns add a key -/

/-- The next turn of a frame carries out a definition or a dimension that names a variable of the
given key, or starts a pass of a loop that counts with one. -/
def Introduces (f : Frame program.size) (key : Text) : Prop :=
  (∃ st, f.position < f.span.stop ∧ program.statements[f.position]? = some st ∧
    ((∃ names type, st.action = .declare names type ∧ ∃ name ∈ names, name.lower = key) ∨
      ∃ arrays source, st.action = .dimension arrays source ∧ ∃ p ∈ arrays, p.1.lower = key)) ∨
  (f.span.stop ≤ f.position ∧ ∃ counter next last step h,
    f.passes = .counted counter next last step h ∧ counter.lower = key)

/-- What a frame may define is what it introduces. -/
theorem introduces_of_defines {f : Frame program.size} {change : Change} {v : Variable}
    (hchange : (permit f).changes change) (hdefines : Store.Defines change v) :
    Introduces f v.key := by
  by_cases hlt : f.position < f.span.stop
  · obtain ⟨⟨line, action⟩, hst⟩ := exists_statement hlt
    rw [permit_of_lt hlt hst] at hchange
    refine .inl ⟨_, hlt, hst, ?_⟩
    cases action with
    | declare names type =>
      obtain ⟨name, hname, rfl⟩ := hchange
      cases hdefines
      exact .inl ⟨names, type, rfl, name, hname, rfl⟩
    | dimension arrays source =>
      obtain ⟨p, hp, n, rfl⟩ := hchange
      cases hdefines
      exact .inr ⟨arrays, source, rfl, p, hp, rfl⟩
    | input names source =>
      obtain ⟨name, hname, value, rfl⟩ := hchange
      cases hdefines
    | assign target name index source =>
      obtain ⟨value, rfl⟩ | ⟨i, value, rfl⟩ := hchange <;> cases hdefines
    | _ => cases hchange
  · have hle := Nat.not_lt.mp hlt
    rw [permit_of_le hle] at hchange
    refine .inr ⟨hle, ?_⟩
    cases hpasses : f.passes with
    | counted counter next last step h =>
      rw [hpasses] at hchange
      obtain ⟨n, rfl⟩ := hchange
      cases hdefines
      exact ⟨counter, next, last, step, h, rfl, rfl⟩
    | _ =>
      rw [hpasses] at hchange
      cases hchange

/-- No run has a key twice. -/
private theorem nodup_keys_after (around : Surroundings) (program : Program) (n : Nat) :
    (after around program n).1.store.keys.Nodup := by
  refine after_induction (P := fun c => c.1.store.keys.Nodup) List.nodup_nil ?_ n
  intro s f rest d hs hturn
  exact Exec.nodup_keys_of_effects (turn_effects hturn) hs

/-- **A key that is new after a turn is one that the turn introduces.** -/
theorem introduces_of_mem_keys_after {n : Nat} {key : Text}
    (hnew : key ∈ (after around program (n + 1)).1.store.keys)
    (hold : key ∉ (after around program n).1.store.keys) :
    ∃ f rest, (after around program n).2 = f :: rest ∧ Introduces f key := by
  rw [after_succ] at hnew
  have hnodup := nodup_keys_after around program n
  rcases hafter : after around program n with ⟨s, _ | ⟨f, rest⟩⟩
  · rw [hafter] at hnew hold
    exact absurd hnew hold
  · rw [hafter] at hnew hold hnodup
    cases hturn : turn around (s, f :: rest) with
    | none =>
      rw [goOn_of_turn_eq_none hturn] at hnew
      exact absurd hnew hold
    | some d =>
      rw [goOn, hturn, Option.getD_some] at hnew
      obtain hs | ⟨change, v, hchange, hdefines, rfl⟩ :=
        Exec.exists_defines_of_effects (turn_effects hturn) hnodup hnew
      · exact absurd hs hold
      · exact ⟨f, rest, rfl, introduces_of_defines hchange hdefines⟩

/-! ### Runs with an observer -/

/-- At any time, the observer has been told the whole story of the store. -/
private theorem watched_after {notices : Nat → Notice} (hnotices : around.notices = some notices)
    (program : Program) (n : Nat) : (after around program n).1.Watched := by
  refine (after_induction (P := fun c => c.1.store.keys.Nodup ∧ c.1.Watched)
    ⟨List.nodup_nil, rfl, .singleton _⟩ ?_ n).2
  rintro s f rest d ⟨hnodup, hs⟩ hturn
  have heffects := turn_effects hturn
  exact ⟨Exec.nodup_keys_of_effects heffects hnodup,
    Exec.watched_of_effects hnotices heffects hnodup hs⟩

/-- A turn with an observer that is not noticed is a turn without one. -/
private theorem turn_unwatched (around : Surroundings) (s : RunState)
    (frames : List (Frame program.size)) :
    turn { around with notices := none } (s.unwatched, frames) =
      (turn { around with notices := some fun _ => ⟨false, none⟩ } (s, frames)).map
        fun c => (c.1.unwatched, c.2) := by
  cases frames with
  | nil => rfl
  | cons f rest =>
    have hhalted : s.unwatched.halted = s.halted := rfl
    rw [turn_eq, turn_eq, (composed_proceed f rest).run_unwatched, hhalted]
    split
    · rfl
    · rcases (proceed f rest).run { around with notices := some fun _ => ⟨false, none⟩ } s with
        ⟨fault | new, s'⟩ <;> rfl

/-- A turn without an observer is the turn with it, but for the snapshots. -/
private theorem goOn_unwatched (around : Surroundings) (c : Config program) :
    goOn { around with notices := none } (c.1.unwatched, c.2) =
      let d := goOn { around with notices := some fun _ => ⟨false, none⟩ } c
      (d.1.unwatched, d.2) := by
  simp only [goOn, turn_unwatched]
  cases turn { around with notices := some fun _ => ⟨false, none⟩ } c <;> rfl

/-- So is any number of turns. -/
private theorem after_unwatched (around : Surroundings) (program : Program) (n : Nat) :
    after { around with notices := none } program n =
      let c := after { around with notices := some fun _ => ⟨false, none⟩ } program n
      (c.1.unwatched, c.2) := by
  induction n with
  | zero => rfl
  | succ n ih =>
    rw [after_succ, after_succ, ih]
    exact goOn_unwatched around _

/-- **A run with an observer that is not noticed is a run without one.** -/
theorem execute_unwatched (around : Surroundings) (program : Program) :
    (execute { around with notices := some fun _ => ⟨false, none⟩ } program).unwatched =
      execute { around with notices := none } program := by
  obtain ⟨n, hn⟩ := exists_turn_after_eq_none
    { around with notices := some fun _ => ⟨false, none⟩ } program
  have hn' : turn { around with notices := none }
      (after { around with notices := none } program n) = none := by
    rw [after_unwatched, turn_unwatched, hn]
    rfl
  rw [execute_eq_close_after hn, execute_eq_close_after hn', after_unwatched]
  rfl

/-- **The observer sees every change of a run.** For every source text, in all surroundings and
whatever the observer does, the last snapshot is the final store, and without snapshots the final
store is empty. Each snapshot is one change away from the next. A key is new after a turn only if
the turn carries out a definition or a dimension that names it, or starts a pass of a loop that
counts with it. And if the observer never objects and never cancels, the run is the same, but for
the snapshots, as without an observer, given the same answers, the same limit of loops and the same
random numbers. -/
theorem executeSource_tells_every_change (around : Surroundings) (notices : Nat → Notice)
    (source : Text) :
    let told : Surroundings := { around with notices := some notices }
    let program := Program.ofSource source
    let r := executeSource told source
    (r.snapshots.back? = some r.store ∨ r.snapshots = #[] ∧ r.store = .empty) ∧
    (∀ (i : Nat) (earlier later : Store), r.snapshots[i]? = some earlier →
      r.snapshots[i + 1]? = some later → earlier.Precedes later) ∧
    (∀ n key, key ∈ (after told program (n + 1)).1.store.keys →
      key ∉ (after told program n).1.store.keys →
        ∃ f rest, (after told program n).2 = f :: rest ∧ Introduces f key) ∧
    ((∀ i, notices i = ⟨false, none⟩) →
      { r with snapshots := #[] } = executeSource { around with notices := none } source) := by
  intro told program r
  obtain ⟨n, hn⟩ := exists_turn_after_eq_none told program
  have hr : r = close (after told program n).1 := execute_eq_close_after hn
  have hnotices : told.notices = some notices := rfl
  have hwatched : r.Watched := by
    have h := watched_after hnotices program n
    rw [hr]
    exact ⟨h.last, h.steps⟩
  refine ⟨?_, ?_, fun n key => introduces_of_mem_keys_after, ?_⟩
  · exact hwatched.last_cases
  · intro i earlier later hearlier hlater
    exact hwatched.precedes hearlier hlater
  · intro hnotices
    obtain rfl : notices = fun _ => ⟨false, none⟩ := funext hnotices
    exact execute_unwatched around program

end Machine

end Pseudocode
