import Mathlib.Data.Nat.Find
import Pseudocode.Proofs.Run.Effects
import Pseudocode.Proofs.Text.Trim

/-!
# The record of a run

Every run ends cleanly, whatever its surroundings do: the source of input may answer, cancel, refuse
or fail, and so may the observer of the variables.

* **Reading** a program cannot fail. The one reader on the way that can, the reader of a numeral at
  the start of a text, is only used on trimmed parts of case labels, where it cannot
  (`readLabelValues_eq_ok`).
* **The trace** is kept tidy by every effect of a run (`RunState.Tidy`): nodes are numbered by their
  position and not yet linked, the first one alone is a start, none is an end, and there are as many
  lines of output as output nodes. Closing the run adds the end and the links.
* **Halting**: a turn is only taken while nothing was reported and nobody has cancelled the run, so
  whatever is reported is reported in the last turn.
-/

namespace Pseudocode

/-! ### Reading case labels -/

namespace Cases

/-- The value of a part of a case label, read with the reader of leading numerals, which may
fail. -/
def readLabelValue (t : Text) : Except Fault Value :=
  let value := t.trim
  if decide (2 ≤ value.length) && value.head? == value.getLast? && value.head?.any isQuote then
    .ok (.text (value.drop 1).dropLast)
  else do
    match ← Numeral.leading value with
    | some x => return .number (.ofReal x)
    | none => return .text value

/-- The values of a case label, read one after the other. -/
def readLabelValues (t : Text) : Except Fault (List Value) := (t.splitAt ',').mapM readLabelValue

/-- Behind white space that was trimmed off, a leading numeral can always be read. -/
private theorem leading_eq_ok {t : Text} (h : t.Trimmed) :
    Numeral.leading t = .ok ((Numeral.signed? t).map (·.1)) := by
  rw [Numeral.leading, h.dropWhile_isBlank, h.takeWhile_isBlank]
  cases Numeral.signed? t <;> rfl

private theorem readLabelValue_eq_ok (t : Text) : readLabelValue t = .ok (labelValue t) := by
  rw [readLabelValue, labelValue]
  split
  · rfl
  · rw [leading_eq_ok (Text.trimmed_trim t)]
    cases Numeral.signed? t.trim <;> rfl

/-- **No case label is refused**, and the values found are those that the program keeps. -/
theorem readLabelValues_eq_ok (t : Text) : readLabelValues t = .ok (labelValues t) := by
  rw [readLabelValues, labelValues]
  induction t.splitAt ',' with
  | nil => rfl
  | cons part rest ih =>
    rw [List.mapM_cons, readLabelValue_eq_ok, ih]
    rfl

end Cases

/-! ### Traces -/

namespace Trace

@[simp] theorem kinds_add (t : Trace) (kind : NodeKind) (label : Text) :
    (t.add kind label).kinds = t.kinds ++ [kind] := by
  simp [kinds, add]

/-- Nodes are numbered by their position, and none is linked to another one yet. -/
def Numbered (t : Trace) : Prop :=
  ∀ (i : Nat) (node : TraceNode), t.nodes[i]? = some node → node.number = i ∧ node.children = []

/-- A new node has the next number. -/
private theorem Numbered.add {t : Trace} (h : t.Numbered) (kind : NodeKind) (label : Text) :
    (t.add kind label).Numbered := by
  intro i node hi
  rw [Trace.add, Array.getElem?_push] at hi
  split at hi
  · next hsize =>
    obtain rfl := Option.some.inj hi
    exact ⟨hsize.symm, rfl⟩
  · exact h i node hi

@[simp] theorem kinds_stitch (t : Trace) : t.stitch.kinds = t.kinds := by
  simp only [kinds, stitch, Array.toList_map, List.map_map]
  refine List.map_congr_left fun n _ => ?_
  simp only [Function.comp_apply, TraceNode.link]
  split
  · split <;> rfl
  · rfl

/-- **Stitching** links each node to the one behind it, and to no other. -/
theorem Numbered.stitch {t : Trace} (h : t.Numbered) {i : Nat} {node : TraceNode}
    (hi : t.stitch.nodes[i]? = some node) :
    node.number = i ∧ node.children = if i + 1 < t.nodes.size then [i + 1] else [] := by
  rw [Trace.stitch, Array.getElem?_map] at hi
  obtain ⟨n, hn, rfl⟩ := Option.map_eq_some_iff.mp hi
  obtain ⟨hnumber, hchildren⟩ := h i n hn
  rw [hnumber]
  split
  · simp [TraceNode.link, hnumber, hchildren]
  · exact ⟨hnumber, hchildren⟩

end Trace

/-! ### What every effect leaves tidy -/

/-- The record of a run that is under way: numbered nodes that are not yet linked, of which the
first alone is a start and none is an end, and one line of output for each output node. -/
structure RunState.Tidy (s : RunState) : Prop where
  numbered : s.trace.Numbered
  kinds : ∃ inner, s.trace.kinds = .start :: inner ∧ .start ∉ inner ∧ .finish ∉ inner
  outputs : s.output.size = s.trace.kinds.count .output

namespace RunState

private theorem tidy_initial : initial.Tidy where
  numbered := by
    refine Trace.Numbered.add ?_ _ _
    intro i node hi
    simp [Trace.empty] at hi
  kinds := ⟨[], by simp [initial, Trace.kinds, Trace.empty, Trace.add], by simp, by simp⟩
  outputs := by simp [initial, Trace.kinds, Trace.empty, Trace.add]

/-- Adding an inner node together with as many lines of output as it counts for. -/
private theorem Tidy.add {s s' : RunState} (h : s.Tidy) {kind : NodeKind} {label : Text}
    (hstart : kind ≠ .start) (hfinish : kind ≠ .finish)
    (htrace : s'.trace = s.trace.add kind label)
    (houtput : s'.output.size = s.output.size + [kind].count .output) : s'.Tidy where
  numbered := htrace ▸ h.numbered.add kind label
  kinds := by
    obtain ⟨inner, hinner, hs, hf⟩ := h.kinds
    refine ⟨inner ++ [kind], ?_, ?_, ?_⟩
    · rw [htrace, Trace.kinds_add, hinner, List.cons_append]
    · simp [hs, hstart.symm]
    · simp [hf, hfinish.symm]
  outputs := by
    rw [houtput, htrace, Trace.kinds_add, List.count_append, h.outputs]

end RunState

namespace Exec

open Relation (ReflTransGen)
open RunState (Tidy)

variable {around : Surroundings} {p : Permit} {s t : RunState}

/-- **Every effect leaves the record tidy.** Nodes are added inside of the trace, and an output node
comes with its line. -/
theorem Effect.tidy (h : Effect around p s t) (hs : s.Tidy) : t.Tidy := by
  cases h with
  | addNode label hkind =>
    rcases hkind with rfl | rfl | rfl <;>
      exact hs.add (by decide) (by decide) rfl rfl
  | write line label => exact hs.add (by decide) (by decide) rfl (Array.size_push _)
  | evaluate | change | tell | ask => exact ⟨hs.numbered, hs.kinds, hs.outputs⟩

/-- Any number of effects leaves a tidy record. -/
private theorem tidy_of_effects (h : ReflTransGen (Effect around p) s t) (hs : s.Tidy) :
    t.Tidy := by
  induction h with
  | refl => exact hs
  | tail _ heffect ih => exact heffect.tidy ih

end Exec

namespace Machine

variable {program : Program} {around : Surroundings}

/-- The record is tidy after any number of turns, also where a turn ended in a fault. -/
private theorem tidy_after (around : Surroundings) (program : Program) (n : Nat) :
    (after around program n).1.Tidy :=
  after_induction RunState.tidy_initial
    (fun _ _ _ _ hs hturn => Exec.tidy_of_effects (turn_effects hturn) hs) n

/-! ### The end of a run -/

/-- The record that a run leaves behind: a start, inner nodes and an end, each node named by its
position and linked to the next one only, and one line of output for each output node. -/
structure Complete (r : RunState) : Prop where
  kinds : ∃ inner, r.trace.kinds = .start :: inner ++ [.finish] ∧ .start ∉ inner ∧ .finish ∉ inner
  linked : ∀ (i : Nat) (node : TraceNode), r.trace.nodes[i]? = some node →
    node.name = TraceNode.nameOf i ∧
      node.children = if i + 1 < r.trace.nodes.size then [i + 1] else []
  outputs : r.output.size = r.trace.kinds.count .output

/-- **A tidy record is complete when the run is closed.** -/
private theorem complete_close {s : RunState} (h : s.Tidy) : Complete (close s) where
  kinds := by
    obtain ⟨inner, hinner, hs, hf⟩ := h.kinds
    refine ⟨inner, ?_, hs, hf⟩
    simp [close, hinner]
  linked i node hi := by
    have hnumbered := h.numbered.add .finish "Fin".toList
    have hsize : (close s).trace.nodes.size = (s.trace.add .finish "Fin".toList).nodes.size :=
      Array.size_map ..
    obtain ⟨hnumber, hchildren⟩ := hnumbered.stitch hi
    rw [hsize]
    exact ⟨congrArg TraceNode.nameOf hnumber, hchildren⟩
  outputs := by
    change s.output.size = _
    rw [h.outputs]
    simp [close]

/-- As long as there is another turn, nothing was reported and nobody has cancelled the run. -/
private theorem clear_of_turn_ne_none {c : Config program} (h : turn around c ≠ none) :
    c.1.errors = #[] ∧ c.1.cancelled = false := by
  obtain ⟨d, hd⟩ := Option.ne_none_iff_exists'.mp h
  exact RunState.halted_eq_false_iff.mp (turn_cases hd).1

/-- A turn in which something is reported or the run is cancelled is the last one. -/
private theorem turn_after_eq_none_of_halted {j k : Nat}
    (h : (after around program (j + 1)).1.halted = true) (hjk : j < k) :
    turn around (after around program k) = none :=
  turn_after_eq_none_of_le (turn_eq_none_iff.mpr (.inr h)) hjk

/-- **Every run ends cleanly**, whatever the source text, and whatever the source of input and the
observer of the variables do: no case label is refused when the program is read; the run leaves a
complete record behind; a turn in which something was reported or the run was cancelled is the last
one; and before the last turn nothing was reported and nobody had cancelled the run, so that all
messages are from that turn. -/
theorem executeSource_endsCleanly (around : Surroundings) (source : Text) :
    (∀ label, Cases.readLabelValues label = .ok (Cases.labelValues label)) ∧
    Complete (executeSource around source) ∧
    (∀ j k, (after around (Program.ofSource source) (j + 1)).1.halted = true → j < k →
      turn around (after around (Program.ofSource source) k) = none) ∧
    ∃ n, turn around (after around (Program.ofSource source) n) = none ∧
      executeSource around source = close (after around (Program.ofSource source) n).1 ∧
      ∀ k < n, turn around (after around (Program.ofSource source) k) ≠ none ∧
        (after around (Program.ofSource source) k).1.errors = #[] ∧
        (after around (Program.ofSource source) k).1.cancelled = false := by
  classical
  -- the first number of turns after which there is none left
  have hends := exists_turn_after_eq_none around (Program.ofSource source)
  have hresult : executeSource around source =
      close (after around (Program.ofSource source) (Nat.find hends)).1 :=
    execute_eq_close_after (Nat.find_spec hends)
  refine ⟨Cases.readLabelValues_eq_ok, ?_, fun j k => turn_after_eq_none_of_halted,
    Nat.find hends, Nat.find_spec hends, hresult, fun k hk => ?_⟩
  · rw [hresult]
    exact complete_close (tidy_after around _ _)
  · have hturn := Nat.find_min hends hk
    exact ⟨hturn, clear_of_turn_ne_none hturn⟩

end Machine

end Pseudocode
