import Pseudocode.Proofs.Run.Effects

/-!
# How a run uses its input

The source of input is asked by `Leer` only, once for each variable that is read, and a run depends
on no more of the answers than it has asked for. There are two sides to this.

* **Nothing is read ahead.** Two runs whose sources of input agree on the questions that the first
  of them asks are the same run (`execute_eq_of_agree`). The number of questions never falls, so if
  the sources agree up to the end of the first run they agree up to every point before it, and the
  two runs go through the same states, turn by turn.
* **Nothing is skipped, and the order is kept.** `Machine.Reads` lists the variables that the turns
  of a run read, and says of each of them that it got the value that the entry of the same number
  stands for (`Exec.Answered`). The questions of a run are the questions for these variables, in
  this order (`exists_reads_after`).
-/

namespace Pseudocode

open Relation (ReflTransGen)

/-- The surroundings with a source of input that answers with the entries of a list, and then with
empty lines. -/
def Surroundings.scripted (around : Surroundings) (inputs : List Text) : Surroundings :=
  { around with replies := some fun i => .answer (inputs.getD i []) }

namespace Exec

variable {α : Type} {around : Surroundings} {p : Permit} {s t : RunState}

/-! ### Nothing is read ahead -/

private theorem Effect.prompts_size_le (h : Effect around p s t) :
    s.prompts.size ≤ t.prompts.size := by
  cases h with
  | ask _ _ => simp
  | _ => exact Nat.le_refl _

private theorem prompts_size_le_of_effects (h : ReflTransGen (Effect around p) s t) :
    s.prompts.size ≤ t.prompts.size := by
  induction h with
  | refl => exact Nat.le_refl _
  | tail _ heffect ih => exact Nat.le_trans ih heffect.prompts_size_le

/-- What may not ask does not ask. -/
private theorem prompts_eq_of_effects (hp : ∀ prompt, ¬ p.asks prompt)
    (h : ReflTransGen (Effect around p) s t) : t.prompts = s.prompts := by
  induction h with
  | refl => rfl
  | tail _ heffect ih =>
    cases heffect with
    | ask hask _ => exact absurd hask (hp _)
    | _ => exact ih

/-- **A part of a run depends only on the answers to the questions that it has asked.** -/
theorem Composed.run_eq_of_agree {e : Exec α} (h : Composed p e) (around : Surroundings)
    {xs ys : Nat → Reply} (s : RunState)
    (hagree : ∀ i < (e.run { around with replies := some xs } s).2.prompts.size, xs i = ys i) :
    e.run { around with replies := some ys } s = e.run { around with replies := some xs } s := by
  induction h generalizing s with
  | pure | throw | addNode | write => rfl
  | evaluate e => rw [run_evaluate, run_evaluate]
  | update _ => simp only [run_update, run_notify]
  | @bind α β e k _ hk ihe ihk =>
    rw [run_bind] at hagree ⊢
    rw [run_bind]
    rcases hr : e.run { around with replies := some xs } s with ⟨fault | a, s'⟩
    · rw [hr] at hagree
      rw [ihe s (by rwa [hr]), hr]
    · rw [hr] at hagree
      -- the second part asks more, so that the first is covered by what both ask
      have hle := prompts_size_le_of_effects ((hk a).effects { around with replies := some xs } s')
      rw [ihe s (by rw [hr]; exact fun i hi => hagree i (Nat.lt_of_lt_of_le hi hle)), hr]
      exact ihk a s' hagree
  | look _ _ ih =>
    rw [run_bind_ok run_get] at hagree ⊢
    exact ih s s hagree
  | @limit β k hlimit _ ih =>
    rw [run_bind_ok run_read] at hagree ⊢
    rw [run_bind_ok run_read,
      hlimit { around with replies := some ys } { around with replies := some xs } rfl]
    exact ih _ s hagree
  | ask _ =>
    simp only [run_ask] at hagree ⊢
    rw [hagree s.prompts.size (by simp)]

end Exec

namespace Machine

variable {program : Program} {around : Surroundings} {xs ys : Nat → Reply}

/-- No question is taken back. -/
private theorem prompts_size_le_goOn (around : Surroundings) (c : Config program) :
    c.1.prompts.size ≤ (goOn around c).1.prompts.size := by
  obtain ⟨s, _ | ⟨f, rest⟩⟩ := c
  · exact Nat.le_refl _
  · cases hturn : turn around (s, f :: rest) with
    | none => exact Nat.le_of_eq (by rw [goOn_of_turn_eq_none hturn])
    | some d =>
      rw [goOn, hturn, Option.getD_some]
      exact Exec.prompts_size_le_of_effects (turn_effects hturn)

/-- A turn depends only on the answers to the questions that have been asked when it is over. -/
private theorem turn_eq_of_agree (c : Config program)
    (hagree : ∀ i < (goOn { around with replies := some xs } c).1.prompts.size, xs i = ys i) :
    turn { around with replies := some ys } c = turn { around with replies := some xs } c := by
  obtain ⟨s, _ | ⟨f, rest⟩⟩ := c
  · rfl
  · rw [goOn, turn_eq] at hagree
    rw [turn_eq, turn_eq]
    split
    · rfl
    · next hs =>
      rw [if_neg hs] at hagree
      rw [(composed_proceed f rest).run_eq_of_agree around s]
      rcases hr : (proceed f rest).run { around with replies := some xs } s with ⟨fault | new, s'⟩
      all_goals
        rw [hr] at hagree
        exact hagree

/-- Runs whose answers agree so far are the same so far. -/
private theorem after_eq_of_agree {n : Nat}
    (hagree : ∀ i < (after { around with replies := some xs } program n).1.prompts.size,
      xs i = ys i) :
    after { around with replies := some ys } program n =
      after { around with replies := some xs } program n := by
  induction n with
  | zero => rfl
  | succ n ih =>
    rw [after_succ] at hagree ⊢
    have hle := prompts_size_le_goOn { around with replies := some xs }
      (after { around with replies := some xs } program n)
    rw [ih fun i hi => hagree i (Nat.lt_of_lt_of_le hi hle), after_succ, goOn,
      turn_eq_of_agree _ hagree]
    rfl

/-- **A run depends only on the answers to its questions.** -/
theorem execute_eq_of_agree
    (hagree : ∀ i < (execute { around with replies := some xs } program).prompts.size,
      xs i = ys i) :
    execute { around with replies := some ys } program =
      execute { around with replies := some xs } program := by
  obtain ⟨n, hn⟩ := exists_turn_after_eq_none { around with replies := some xs } program
  rw [execute_eq_close_after hn] at hagree ⊢
  have hafter := after_eq_of_agree hagree
  have hn' : turn { around with replies := some ys }
      (after { around with replies := some ys } program n) = none := by
    rw [hafter, turn_eq_of_agree, hn]
    rw [goOn_of_turn_eq_none hn]
    exact hagree
  rw [execute_eq_close_after hn', hafter]

end Machine

/-! ### Every question is for the next variable -/

namespace Exec

/-- Reading variables, the first of them from the entry of the given number, makes one store of
another. The variables must be there. If an entry cannot be read, the variable keeps its value, and
nothing more is read. -/
inductive Answered (entries : Nat → Text) : Nat → List Text → Store → Store → Prop where
  | done (i : Nat) (store : Store) : Answered entries i [] store store
  | read {i : Nat} {name : Text} {rest : List Text} {v : Variable} {value : Value}
      {store last : Store} : store.get? name = some v → coerce v.type (entries i) = .ok value →
      Answered entries (i + 1) rest (store.define { v with value }) last →
      Answered entries i (name :: rest) store last
  | refused {i : Nat} {name : Text} {v : Variable} {fault : Fault} {store : Store} :
      store.get? name = some v → coerce v.type (entries i) = .error fault →
      Answered entries i [name] store store

section Reading

variable {around : Surroundings} {entries : Nat → Text}
  (hreplies : around.replies = some fun i => .answer (entries i))

include hreplies

/-- A question is put on record, and the answer is the next entry. -/
private theorem run_ask_of_entries (prompt : Text) (s : RunState) :
    (ask prompt).run around s =
      (.ok (entries s.prompts.size), { s with prompts := s.prompts.push prompt }) := by
  simp [run_ask, hreplies, Reply.answer]

/-- Reading a variable: it is not there, and nothing is asked; or it is asked for, and gets what the
answer stands for, unless the answer cannot be read. -/
private theorem run_readInto_cases (name : Text) (s : RunState) :
    (∃ fault, (readInto name).run around s = (.error fault, s)) ∨
    ∃ v, s.store.get? name = some v ∧
      ((readInto name).run around s).2.prompts = s.prompts.push (promptFor name) ∧
      ((∃ fault, coerce v.type (entries s.prompts.size) = .error fault ∧
          ((readInto name).run around s).1 = .error fault ∧
          ((readInto name).run around s).2.store = s.store) ∨
        ∃ value, coerce v.type (entries s.prompts.size) = .ok value ∧
          ((readInto name).run around s).2.store = s.store.define { v with value }) := by
  rw [readInto, run_bind_ok run_get]
  cases hlookup : s.store.lookup name true with
  | error fault => exact .inl ⟨fault, rfl⟩
  | ok v =>
    have hget := Store.lookup_eq_ok_iff.mp hlookup
    refine .inr ⟨v, hget, ?_⟩
    rw [ofExcept_ok_bind, run_bind_ok (run_ask_of_entries hreplies _ s)]
    cases hcoerce : coerce v.type (entries s.prompts.size) with
    | error fault => exact ⟨rfl, .inl ⟨fault, rfl, rfl, rfl⟩⟩
    | ok value =>
      have hrun : ((update (.set name value true)).run around
          { s with prompts := s.prompts.push (promptFor name) }).2.store =
            s.store.define { v with value } ∧
          ((update (.set name value true)).run around
          { s with prompts := s.prompts.push (promptFor name) }).2.prompts =
            s.prompts.push (promptFor name) := by
        simp only [run_update, Store.apply_set hget, run_notify]
        cases around.notices <;> exact ⟨rfl, rfl⟩
      exact ⟨hrun.2, .inr ⟨value, rfl, hrun.1⟩⟩

/-- **Reading variables in a row** asks for them in this order, up to one that is not there or where
the reading breaks off, and gives them what the next entries stand for. -/
theorem exists_answered_of_readAll (names : List Text) (s : RunState) {result : Except Fault PUnit}
    {s' : RunState}
    (h : (readAll names).run around s = (result, s')) :
    ∃ taken, taken <+: names ∧ (result = .ok PUnit.unit → taken = names) ∧
      s'.prompts.toList = s.prompts.toList ++ taken.map promptFor ∧
      Answered entries s.prompts.size taken s.store s'.store := by
  induction names generalizing s with
  | nil =>
    cases h
    exact ⟨[], List.prefix_rfl, fun _ => rfl, (List.append_nil _).symm, .done _ _⟩
  | cons name rest ih =>
    rw [readAll_cons, run_bind] at h
    have hone : [name] <+: name :: rest := (List.prefix_cons_inj name).mpr List.nil_prefix
    have hcases := run_readInto_cases hreplies name s
    rcases hread : (readInto name).run around s with ⟨fault | _, t⟩
    all_goals
      rw [hread] at h hcases
      rcases hcases with ⟨_, hnone⟩ | ⟨v, hget, hprompts, ⟨_, hcoerce, hfault, hstore⟩ |
        ⟨value, hcoerce, hstore⟩⟩
    · cases hnone
      cases h
      exact ⟨[], List.nil_prefix, nofun, (List.append_nil _).symm, .done _ _⟩
    · cases h
      refine ⟨[name], hone, nofun, by rw [hprompts, Array.toList_push]; rfl, ?_⟩
      rw [hstore]
      exact .refused hget hcoerce
    · -- the observer objects to the new value, which stays
      cases h
      refine ⟨[name], hone, nofun, by rw [hprompts, Array.toList_push]; rfl, .read hget hcoerce ?_⟩
      rw [hstore]
      exact .done _ _
    · cases hnone
    · cases hfault
    · obtain ⟨taken, hprefix, hall, hasked, hanswered⟩ := ih t h
      have hsize : t.prompts.size = s.prompts.size + 1 := by rw [hprompts, Array.size_push]
      refine ⟨name :: taken, (List.prefix_cons_inj name).mpr hprefix, ?_, ?_, ?_⟩
      · intro hok
        rw [hall hok]
      · rw [hasked, hprompts, Array.toList_push, List.append_assoc]
        rfl
      · rw [hsize, hstore] at hanswered
        exact .read hget hcoerce hanswered

/-- A statement that reads variables asks for them in this order, and if it does not end in a fault
it asks for all of them. -/
private theorem exists_answered_of_input (names : List Text) (source : Text) (s : RunState)
    {result : Except Fault Unit} {s' : RunState}
    (h : (input names source).run around s = (result, s')) :
    ∃ taken, taken <+: names ∧ (result = .ok () → taken = names) ∧
      s'.prompts.toList = s.prompts.toList ++ taken.map promptFor ∧
      Answered entries s.prompts.size taken s.store s'.store := by
  rw [input_eq, run_bind] at h
  rcases hread : (readAll names).run around s with ⟨fault | _, t⟩
  all_goals
    have hanswered := exists_answered_of_readAll hreplies names s hread
    rw [hread] at h
    cases h
  · obtain ⟨taken, hprefix, -, hasked, hanswered⟩ := hanswered
    exact ⟨taken, hprefix, nofun, hasked, hanswered⟩
  · exact hanswered

end Reading

end Exec

namespace Machine

variable {program : Program} {around : Surroundings} {entries : Nat → Text}

/-- The statement that a stack carries out next. -/
def next? (c : Config program) : Option Statement :=
  match c.2 with
  | [] => none
  | f :: _ => if f.position < f.span.stop then program.statements[f.position]? else none

/-- The next statement is the one at the position of the topmost frame, if the frame has lines
left. -/
theorem next?_eq_some_iff {s : RunState} {f : Frame program.size} {rest : List (Frame program.size)}
    {st : Statement} : next? (s, f :: rest) = some st ↔
      f.position < f.span.stop ∧ program.statements[f.position]? = some st := by
  by_cases h : f.position < f.span.stop <;> simp [next?, h]

/-- The variables that are read in the first turns of a run, in order, each of which gets what the
entry of its number stands for. -/
inductive Reads (around : Surroundings) (program : Program) (entries : Nat → Text) :
    Nat → List Text → Prop where
  | start : Reads around program entries 0 []
  /-- A turn reads the variables that its statement names, up to a fault. -/
  | input {n : Nat} {names more taken : List Text} {line : Line} {source : Text} :
      Reads around program entries n names →
      next? (after around program n) = some ⟨line, .input more source⟩ → taken <+: more →
      (taken = more ∨ (after around program (n + 1)).1.halted = true) →
      Exec.Answered entries names.length taken (after around program n).1.store
        (after around program (n + 1)).1.store →
      Reads around program entries (n + 1) (names ++ taken)
  /-- A turn with another statement, or without any, reads nothing. -/
  | other {n : Nat} {names : List Text} : Reads around program entries n names →
      (∀ line more source,
        next? (after around program n) ≠ some ⟨line, .input more source⟩) →
      Reads around program entries (n + 1) names

private theorem not_asks_of_next? {s : RunState} {f : Frame program.size}
    {rest : List (Frame program.size)}
    (h : ∀ line more source, next? (s, f :: rest) ≠ some ⟨line, .input more source⟩)
    (prompt : Text) : ¬ (permit f).asks prompt := by
  intro hask
  by_cases hlt : f.position < f.span.stop
  · obtain ⟨⟨line, action⟩, hst⟩ := exists_statement hlt
    rw [permit_of_lt hlt hst] at hask
    cases action with
    | input more source => exact h line more source (next?_eq_some_iff.mpr ⟨hlt, hst⟩)
    | _ => cases hask
  · rw [permit_of_le (Nat.not_lt.mp hlt)] at hask
    cases hpasses : f.passes with
    | _ =>
      rw [hpasses] at hask
      cases hask

/-- Only a statement that reads variables asks. -/
private theorem prompts_goOn {c : Config program}
    (h : ∀ line more source, next? c ≠ some ⟨line, .input more source⟩) :
    (goOn around c).1.prompts = c.1.prompts := by
  obtain ⟨s, _ | ⟨f, rest⟩⟩ := c
  · rfl
  · cases hturn : turn around (s, f :: rest) with
    | none => rw [goOn_of_turn_eq_none hturn]
    | some d =>
      rw [goOn, hturn, Option.getD_some]
      exact Exec.prompts_eq_of_effects (not_asks_of_next? h) (turn_effects hturn)

section Scripted

variable (hreplies : around.replies = some fun i => .answer (entries i))

include hreplies

/-- **A turn that reads variables** asks for them in this order, up to a fault. -/
theorem exists_answered_goOn {c : Config program} {line : Line} {more : List Text} {source : Text}
    (h : next? c = some ⟨line, .input more source⟩) :
    ∃ taken, taken <+: more ∧ (taken = more ∨ (goOn around c).1.halted = true) ∧
      (goOn around c).1.prompts.toList = c.1.prompts.toList ++ taken.map promptFor ∧
      Exec.Answered entries c.1.prompts.size taken c.1.store (goOn around c).1.store := by
  obtain ⟨s, _ | ⟨f, rest⟩⟩ := c
  · cases h
  obtain ⟨hlt, hst⟩ := next?_eq_some_iff.mp h
  cases hturn : turn around (s, f :: rest) with
  | none =>
    have hhalted : s.halted = true :=
      (turn_eq_none_iff.mp hturn).resolve_left (List.cons_ne_nil _ _)
    rw [goOn_of_turn_eq_none hturn]
    exact ⟨[], List.nil_prefix, .inr hhalted, (List.append_nil _).symm, .done _ _⟩
  | some d =>
    rw [goOn, hturn, Option.getD_some]
    obtain ⟨hfits, next, hproceed⟩ := proceed_of_lt hlt hst rest
    have hinput : proceed f rest = Exec.input more source >>= fun _ => pure (next none) := by
      rw [hproceed, Exec.statement, bind_assoc]
      rfl
    rw [turn_eq, hinput, Exec.run_bind] at hturn
    split at hturn
    · cases hturn
    rcases hrun : (Exec.input more source).run around s with ⟨fault | _, s'⟩
    all_goals
      obtain ⟨taken, hprefix, hall, hasked, hanswered⟩ :=
        Exec.exists_answered_of_input hreplies more source s hrun
      rw [hrun] at hturn
      cases hturn
    · exact ⟨taken, hprefix, .inr (RunState.halted_report _ _ _), hasked, hanswered⟩
    · exact ⟨taken, hprefix, .inl (hall rfl), hasked, hanswered⟩

/-- **The questions of a run are those for the variables that it reads**, in the order in which it
reads them, and each variable gets what the entry of its number stands for. -/
theorem exists_reads_after (program : Program) (n : Nat) :
    ∃ names, Reads around program entries n names ∧
      (after around program n).1.prompts.toList = names.map promptFor := by
  induction n with
  | zero => exact ⟨[], .start, rfl⟩
  | succ n ih =>
    obtain ⟨names, hreads, hprompts⟩ := ih
    by_cases hnext : ∃ line more source,
        next? (after around program n) = some ⟨line, .input more source⟩
    · obtain ⟨line, more, source, hnext⟩ := hnext
      obtain ⟨taken, hprefix, hall, hasked, hanswered⟩ := exists_answered_goOn hreplies hnext
      rw [← after_succ] at hall hasked hanswered
      have hsize : (after around program n).1.prompts.size = names.length := by
        rw [← Array.length_toList, hprompts, List.length_map]
      rw [hsize] at hanswered
      refine ⟨names ++ taken, .input hreads hnext hprefix hall hanswered, ?_⟩
      rw [hasked, hprompts, List.map_append]
    · have hother : ∀ line more source,
          next? (after around program n) ≠ some ⟨line, .input more source⟩ :=
        fun line more source h => hnext ⟨line, more, source, h⟩
      refine ⟨names, .other hreads hother, ?_⟩
      rw [after_succ, prompts_goOn hother, hprompts]

end Scripted

/-- **Input is used once, in order and never ahead of need.** Two runs of a source text whose lists
of entries agree, each of them continued with empty lines, on as many entries as the first run asks
questions are the same run, with the same observer, the same limit of loops and the same random
numbers. And the questions of a run are those for the variables that its turns
read, in order, where the variable read at each place gets what the entry at that place stands
for. -/
theorem executeSource_reads_in_order (around : Surroundings) (source : Text) (xs : List Text) :
    let scripted := around.scripted xs
    let program := Program.ofSource source
    let r := executeSource scripted source
    (∀ ys : List Text, (∀ i < r.prompts.size, xs.getD i [] = ys.getD i []) →
      executeSource (around.scripted ys) source = r) ∧
    ∃ n names, turn scripted (after scripted program n) = none ∧
      Reads scripted program (fun i => xs.getD i []) n names ∧
      r.prompts.toList = names.map promptFor := by
  intro scripted program r
  constructor
  · intro ys hagree
    exact execute_eq_of_agree fun i hi => congrArg Reply.answer (hagree i hi)
  · have hreplies : scripted.replies = some fun i => .answer (xs.getD i []) := rfl
    obtain ⟨n, hn⟩ := exists_turn_after_eq_none scripted program
    obtain ⟨names, hreads, hprompts⟩ := exists_reads_after hreplies program n
    have hr : r = close (after scripted program n).1 := execute_eq_close_after hn
    refine ⟨n, names, hn, hreads, ?_⟩
    rw [hr]
    exact hprompts

end Machine

end Pseudocode
