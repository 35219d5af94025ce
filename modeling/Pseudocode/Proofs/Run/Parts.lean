import Pseudocode.Run.Statement

/-!
# Carrying out parts of a run

How `Exec.run` acts on the building blocks of a part of a run: one equation for each of them. What a
part did before a fault stays done, so each equation says which state a fault leaves behind.
-/

namespace Pseudocode

/-- Surroundings without a source of input and without an observer, with at most a hundred passes of
a loop with a condition, and with random numbers that are all zero. -/
def Surroundings.unattended : Surroundings := ⟨none, none, fun _ => 0, 100⟩

namespace Exec

variable {α β : Type} {around : Surroundings} {s : RunState}

/-! ### Running the building blocks -/

@[simp] theorem run_pure (a : α) : (pure a : Exec α).run around s = (.ok a, s) := rfl

@[simp] theorem run_throw (fault : Fault) :
    (throw fault : Exec α).run around s = (.error fault, s) := rfl

/-- A part followed by another one: a fault in the first ends both. -/
theorem run_bind (e : Exec α) (k : α → Exec β) :
    (e >>= k).run around s =
      match e.run around s with
      | (.ok a, s') => (k a).run around s'
      | (.error fault, s') => (.error fault, s') := by
  simp only [run, ReaderT.run_bind, ExceptT.run_bind, StateT.run_bind]
  rcases (ReaderT.run e around).run.run s with ⟨_ | _, _⟩ <;> rfl

/-- Where the first part ends well, the second one goes on from there. -/
theorem run_bind_ok {e : Exec α} {k : α → Exec β} {a : α} {s' : RunState}
    (h : e.run around s = (.ok a, s')) : (e >>= k).run around s = (k a).run around s' := by
  rw [run_bind, h]

/-- What ends well has two parts that end well. -/
theorem exists_of_run_bind_eq_ok {e : Exec α} {k : α → Exec β} {b : β}
    {s' : RunState} (h : (e >>= k).run around s = (.ok b, s')) :
    ∃ a t, e.run around s = (.ok a, t) ∧ (k a).run around t = (.ok b, s') := by
  rw [run_bind] at h
  rcases he : e.run around s with ⟨fault | a, t⟩
  · rw [he] at h
    cases h
  · rw [he] at h
    exact ⟨a, t, rfl, h⟩

@[simp] theorem run_read : (read : Exec Surroundings).run around s = (.ok around, s) := rfl

@[simp] theorem run_get : (get : Exec RunState).run around s = (.ok s, s) := rfl

@[simp] theorem run_set (t : RunState) : (set t : Exec Unit).run around s = (.ok (), t) := rfl

@[simp] theorem run_addNode (kind : NodeKind) (label : Text) :
    (addNode kind label).run around s =
      (.ok (), { s with trace := s.trace.add kind label }) := rfl

@[simp] theorem run_ofExcept_ok (a : α) :
    (ofExcept (.ok a) : Exec α).run around s = (.ok a, s) := rfl

@[simp] theorem run_ofExcept_error (fault : Fault) :
    (ofExcept (.error fault) : Exec α).run around s = (.error fault, s) := rfl

/-- A result that there is already is handed on. -/
theorem ofExcept_ok_bind (a : α) (k : α → Exec β) : (ofExcept (.ok a) >>= k) = k a := rfl

/-- Carrying out an evaluation changes nothing but the count of random numbers and the reports. -/
theorem run_evaluate (e : Eval α) :
    (evaluate e).run around s =
      ((e.run ⟨s.store, around.draws, true⟩ s.drawn).1,
        { s with
          drawn := (e.run ⟨s.store, around.draws, true⟩ s.drawn).2.drawn
          errors := s.errors ++
            (e.run ⟨s.store, around.draws, true⟩ s.drawn).2.reports.map Fault.message }) := by
  rcases h : e.run ⟨s.store, around.draws, true⟩ s.drawn with ⟨fault | a, progress⟩ <;>
    simp only [evaluate, run_bind, run_read, run_get, run_set, h, run_ofExcept_error,
      run_ofExcept_ok]

/-- An evaluation that draws nothing and reports nothing changes nothing. -/
theorem run_evaluate_of_quiet {e : Eval α} {result : Except Fault α}
    (h : e.run ⟨s.store, around.draws, true⟩ s.drawn = (result, ⟨s.drawn, #[]⟩)) :
    (evaluate e).run around s = (result, s) := by
  simp only [run_evaluate, h, Array.map_empty, Array.append_empty]

/-- Telling the observer: nothing without one, else a snapshot, perhaps the end of the run, and
perhaps a fault. -/
theorem run_notify :
    notify.run around s =
      match around.notices with
      | none => (.ok (), s)
      | some notices =>
        ((match (notices s.snapshots.size).failure with
          | some objection => .error objection.fault
          | none => .ok ()),
          { s with
            snapshots := s.snapshots.push s.store
            cancelled := s.cancelled || (notices s.snapshots.size).cancels }) := by
  rw [notify, run_bind_ok run_read]
  cases around.notices with
  | none => rfl
  | some notices =>
    simp only [run_bind, run_get, run_set]
    cases (notices s.snapshots.size).failure <;> rfl

/-- A change that cannot be carried out changes nothing and is not told. -/
theorem run_update (change : Change) :
    (update change).run around s =
      match s.store.apply change with
      | .error fault => (.error fault, s)
      | .ok store => notify.run around { s with store } := by
  rw [update, run_bind_ok run_get]
  cases s.store.apply change with
  | error fault => rfl
  | ok store => rw [run_bind_ok (run_ofExcept_ok _), run_bind_ok (run_set _)]

/-- A change that cannot be carried out is a fault, and nothing has happened. -/
theorem run_update_of_error {change : Change} {fault : Fault}
    (h : s.store.apply change = .error fault) :
    (update change).run around s = (.error fault, s) := by
  rw [run_update, h]

/-- Asking the source of input: an empty answer without one, else a question on record, perhaps the
end of the run, and an answer or a fault. -/
theorem run_ask (prompt : Text) :
    (ask prompt).run around s =
      match around.replies with
      | none => (.ok [], s)
      | some replies =>
        ((match (replies s.prompts.size).outcome with
          | .ok t => .ok t
          | .error objection => .error objection.fault),
          { s with
            prompts := s.prompts.push prompt
            cancelled := s.cancelled || (replies s.prompts.size).cancels }) := by
  rw [ask, run_bind_ok run_read]
  cases around.replies with
  | none => rfl
  | some replies =>
    simp only [run_bind, run_get, run_set]
    cases (replies s.prompts.size).outcome <;> rfl

/-- Reads answers into variables, one after the other. -/
def readAll (names : List Text) : Exec PUnit := do
  for name in names do
    readInto name

/-- The first variable is read first. -/
theorem readAll_cons (name : Text) (rest : List Text) :
    readAll (name :: rest) = readInto name >>= fun _ => readAll rest := by
  simp only [readAll, List.forIn_cons, bind_assoc, pure_bind]

/-- A statement that reads variables adds its node when all of them are read. -/
theorem input_eq (names : List Text) (source : Text) :
    input names source =
      readAll names >>= fun _ => addNode .input ("Leer ".toList ++ source) := by
  simp only [input, readAll, bind_assoc, pure_bind]

/-- Taking a value for an integer changes nothing, also if the value is refused. -/
theorem exists_run_integer (value : Value) (source : Text) :
    ∃ result, (integer value source).run around s = (result, s) := by
  have hrefuse : ∃ result, (do
      let shown ← ofExcept value.display
      throw (.within source (.notAnInteger shown)) : Exec Int).run around s = (result, s) := by
    cases value.display with
    | error fault => exact ⟨_, rfl⟩
    | ok shown => exact ⟨_, rfl⟩
  cases value with
  | number n =>
    rw [integer]
    cases n.isFinite with
    | error fault => exact ⟨_, rfl⟩
    | ok finite =>
      rw [ofExcept_ok_bind]
      cases finite with
      | false => exact hrefuse
      | true =>
        cases n.truncate with
        | error fault => exact ⟨_, rfl⟩
        | ok k => exact ⟨_, rfl⟩
  | _ => exact hrefuse

end Exec

end Pseudocode
