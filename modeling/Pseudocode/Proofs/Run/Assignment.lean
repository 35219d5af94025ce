import Pseudocode.Proofs.Expr.Shown
import Pseudocode.Proofs.Run.Inputs
import Pseudocode.Proofs.Store.Elements

/-!
# Assignments that fail

An assignment evaluates first and changes the variables last, so that a fault on the way finds the
variables and the trace as they were (`Exec.Atomic`). The last step, the change of the variables, is
carried out as a whole or not at all, and nothing after it can fail as long as the observer does not
object.

Messages are not only those of faults. A list with a string in it reports the names in it that are
undefined, its `gaps`, and goes on with `[name?]` in their places. The line that such a list stands
for is a text, and a text is neither an index nor an element. So a message is left behind by an
assignment that is carried out in one case only, which `Exec.FillsGaps` describes: **a list with
gaps is assigned to a variable as a whole**.
-/

namespace Pseudocode

/-! ### Gaps in lists -/

/-- A part of a list that is the name of no variable; it is neither a string nor a truth value. -/
def Store.isGap (s : Store) (p : Text) : Bool :=
  !Eval.isQuotedLiteral p && !s.contains p && (p.isName && (truthWord? p.lower).isNone)

/-- The undefined names among the parts of a list, in order. -/
def Store.gaps (s : Store) (list : Text) : List Text := (splitParts list).filter s.isGap

/-- What is shown in the place of a gap. -/
def Eval.placeholder (p : Text) : Text := '[' :: p ++ ['?', ']']

namespace Eval

variable {scope : Scope} {q q' : Progress} {p source : Text}

private theorem outcome_bind_eq_ok {α β : Type} {e : Eval α} {k : α → Eval β} {b : β}
    (h : (e >>= k).outcome scope q = (.ok b, q')) :
    ∃ a r, e.outcome scope q = (.ok a, r) ∧ (k a).outcome scope r = (.ok b, q') := by
  rcases he : e.outcome scope q with ⟨fault | a, r⟩
  · rw [outcome_bind_error he] at h
    cases h
  · rw [outcome_bind_ok he] at h
    exact ⟨a, r, rfl, h⟩

private theorem quiet_expression (source : Text) : Quiet (expression source) :=
  .bind (.ofExcept _) fun tree => tree.quiet_eval

/-- A gap is reported and shown as such, if faults are collected. -/
private theorem outcome_part_of_isGap (hcollects : scope.collects = true)
    (h : scope.store.isGap p = true) :
    (part p).outcome scope q =
      (.ok (placeholder p), { q with reports := q.reports.push (.undefinedVariable p false) }) := by
  simp only [Store.isGap, Store.contains, Bool.and_eq_true, Bool.not_eq_true',
    Option.isSome_eq_false_iff, Option.isNone_iff_eq_none] at h
  obtain ⟨⟨hquoted, hget⟩, hname, htruth⟩ := h
  rw [part, if_neg (by simp [hquoted]), outcome_read_bind, hget]
  simp only [hname, htruth, Option.isNone_none, Bool.and_self, if_true]
  rw [report, bind_assoc, outcome_read_bind, if_pos hcollects]
  rfl

/-- Any other part reports nothing. -/
private theorem reports_part_of_not_isGap (h : scope.store.isGap p = false) :
    ((part p).outcome scope q).2.reports = q.reports := by
  cases hquoted : isQuotedLiteral p with
  | true => rw [outcome_part_of_quoted hquoted]
  | false =>
    cases hget : scope.store.get? p with
    | some w => rw [outcome_part_of_get? hquoted hget]
    | none =>
      have hname : (p.isName && (truthWord? p.lower).isNone) = false := by
        simpa [Store.isGap, Store.contains, hquoted, hget] using h
      have hquiet : Quiet (do ofExcept (← expression p).display : Eval Text) :=
        .bind (quiet_expression p) fun v => .ofExcept v.display
      rw [part, if_neg (by simp [hquoted]), outcome_read_bind, hget]
      simp only [hname, Bool.false_eq_true, if_false]
      exact hquiet scope q

/-- **The parts of a list report its gaps**, in order, and show placeholders for them. -/
theorem outcome_parts_eq_ok (hcollects : scope.collects = true) {ts shown : List Text}
    (h : (parts ts).outcome scope q = (.ok shown, q')) :
    q'.reports = q.reports ++
        ((ts.filter scope.store.isGap).map (Fault.undefinedVariable · false)).toArray ∧
      List.Forall₂ (fun p x => scope.store.isGap p = true → x = placeholder p) ts shown := by
  induction ts generalizing q shown with
  | nil =>
    cases h
    exact ⟨by simp, .nil⟩
  | cons p ts ih =>
    obtain ⟨x, r, hpart, h⟩ := outcome_bind_eq_ok h
    obtain ⟨more, r', hparts, h⟩ := outcome_bind_eq_ok h
    cases h
    obtain ⟨hreports, hshown⟩ := ih hparts
    cases hgap : scope.store.isGap p with
    | true =>
      obtain ⟨⟨⟩, rfl⟩ := Prod.mk.inj ((outcome_part_of_isGap hcollects hgap).symm.trans hpart)
      refine ⟨?_, .cons (fun _ => rfl) hshown⟩
      rw [hreports, List.filter_cons_of_pos hgap]
      simp
    | false =>
      have hquiet := reports_part_of_not_isGap (q := q) hgap
      rw [hpart] at hquiet
      refine ⟨?_, .cons (fun hno => by rw [hgap] at hno; cases hno) hshown⟩
      rw [hreports, hquiet, List.filter_cons_of_neg (by simp [hgap])]

/-- A line that a list with gaps stands for. -/
private theorem outcome_concatenation_eq_ok (hcollects : scope.collects = true) {line : Text}
    (h : (concatenation source).outcome scope q = (.ok line, q')) :
    q'.reports = q.reports ++
        ((scope.store.gaps source).map (Fault.undefinedVariable · false)).toArray ∧
      ∃ shown, line = Text.join [' '] shown ∧
        List.Forall₂ (fun p x => scope.store.isGap p = true → x = placeholder p)
          (splitParts source) shown := by
  obtain ⟨shown, r, hparts, h⟩ := outcome_bind_eq_ok h
  cases h
  obtain ⟨hreports, hshown⟩ := outcome_parts_eq_ok hcollects hparts
  exact ⟨hreports, shown, rfl, hshown⟩

private theorem outcome_value_of_isConcatenation (h : isConcatenation source = true) :
    (value source).outcome scope q =
      ((concatenation source >>= fun line => pure (.text line)) : Eval Value).outcome scope q := by
  rw [value, if_pos h]

/-- What is no list reports nothing. -/
private theorem quiet_value_of_not_isConcatenation (h : isConcatenation source = false) :
    Quiet (value source) := by
  rw [value, if_neg (by simp [h])]
  exact quiet_expression source

/-- A value that is no text was not made of a list, and nothing was reported. -/
private theorem reports_value_of_ne_text {v : Value} (hv : ∀ t, v ≠ .text t)
    (h : (value source).outcome scope q = (.ok v, q')) : q'.reports = q.reports := by
  cases hlist : isConcatenation source with
  | true =>
    rw [outcome_value_of_isConcatenation hlist] at h
    obtain ⟨line, r, -, h⟩ := outcome_bind_eq_ok h
    cases h
    exact absurd rfl (hv line)
  | false =>
    have hquiet := quiet_value_of_not_isConcatenation hlist scope q
    rwa [h] at hquiet

end Eval

/-! ### Parts of a run that fail as a whole -/

/-- The variables and the trace are the same in both states. -/
def RunState.Untouched (s t : RunState) : Prop := t.store = s.store ∧ t.trace = s.trace

/-- The observer never breaks off the run. -/
def Surroundings.Lenient (around : Surroundings) : Prop :=
  ∀ notices, around.notices = some notices → ∀ k, (notices k).failure = none

/-- Where nobody observes, nobody objects. -/
theorem Surroundings.lenient_unattended : Surroundings.unattended.Lenient := by
  intro notices h
  cases h

namespace Exec

variable {α β : Type} {around : Surroundings} {s t : RunState}

private theorem untouched_ofExcept (x : Except Fault α) (s : RunState) :
    s.Untouched ((ofExcept x).run around s).2 := by
  cases x <;> exact ⟨rfl, rfl⟩

/-- An evaluation draws and reports, and nothing else. -/
private theorem untouched_evaluate (e : Eval α) (s : RunState) :
    s.Untouched ((evaluate e).run around s).2 := by
  rw [run_evaluate]
  exact ⟨rfl, rfl⟩

/-- A part of a run that leaves the variables and the trace as they were if it ends in a fault. -/
def Atomic (around : Surroundings) (e : Exec α) : Prop :=
  ∀ ⦃s t : RunState⦄ ⦃fault : Fault⦄, e.run around s = (.error fault, t) → s.Untouched t

/-- What touches nothing may come first. -/
private theorem Atomic.bind {e : Exec α} {k : α → Exec β}
    (he : ∀ s : RunState, s.Untouched (e.run around s).2) (hk : ∀ a, Atomic around (k a)) :
    Atomic around (e >>= k) := by
  intro s t fault hrun
  have hkept := he s
  rw [run_bind] at hrun
  rcases hr : e.run around s with ⟨fault' | a, u⟩
  · rw [hr] at hrun hkept
    cases hrun
    exact hkept
  · rw [hr] at hrun hkept
    obtain ⟨hstore, htrace⟩ := hk a hrun
    exact ⟨hstore.trans hkept.1, htrace.trans hkept.2⟩

/-- What never fails may come last. -/
private theorem Atomic.addNode {e : Exec Unit} (he : Atomic around e) (kind : NodeKind)
    (label : Text) :
    Atomic around (e >>= fun _ => Exec.addNode kind label) := by
  intro s t fault hrun
  rw [run_bind] at hrun
  rcases hr : e.run around s with ⟨fault' | _, u⟩
  · rw [hr] at hrun
    cases hrun
    exact he hr
  · rw [hr] at hrun
    cases hrun

section Lenient

variable (hlenient : around.Lenient)

include hlenient

/-- An observer that does not object changes neither variables nor messages. -/
private theorem run_notify_of_lenient (s : RunState) :
    ∃ t, notify.run around s = (.ok (), t) ∧ s.Untouched t ∧ t.errors = s.errors := by
  rw [run_notify]
  cases hnotices : around.notices with
  | none => exact ⟨s, rfl, ⟨rfl, rfl⟩, rfl⟩
  | some notices =>
    simp only [hlenient notices hnotices]
    exact ⟨_, rfl, ⟨rfl, rfl⟩, rfl⟩

/-- A change is carried out as a whole or not at all. -/
private theorem atomic_update (change : Change) : Atomic around (update change) := by
  intro s t fault hrun
  cases happly : s.store.apply change with
  | error fault' =>
    rw [run_update_of_error happly] at hrun
    cases hrun
    exact ⟨rfl, rfl⟩
  | ok store =>
    obtain ⟨u, hnotify, -⟩ := run_notify_of_lenient hlenient { s with store }
    rw [run_update, happly] at hrun
    cases hnotify.symm.trans hrun

/-- **An assignment that ends in a fault has done nothing.** -/
theorem atomic_assign (target name : Text) (index : Option Text) (source : Text) :
    Atomic around (assign target name index source) := by
  cases index with
  | none =>
    refine .bind (fun _ => ⟨rfl, rfl⟩) fun _ => .bind (untouched_ofExcept _) fun _ =>
      .bind (untouched_evaluate _) fun value => ?_
    exact (atomic_update hlenient _).addNode _ _
  | some index =>
    have hrest : Atomic around (do
        let i ← evaluate (Eval.value index)
        let value ← evaluate (Eval.value source)
        update (.setElement name i value)
        addNode .process (target ++ " <- ".toList ++ source) : Exec Unit) :=
      .bind (untouched_evaluate _) fun i =>
        .bind (untouched_evaluate _) fun value => (atomic_update hlenient _).addNode _ _
    refine .bind (fun _ => ⟨rfl, rfl⟩) fun s => ?_
    split
    · exact hrest
    · exact .bind (fun _ => ⟨rfl, rfl⟩) fun _ => hrest

/-- An update that ends well has carried out the change, and nothing else but telling it. -/
private theorem apply_of_run_update_eq_ok {change : Change}
    (h : (update change).run around s = (.ok (), t)) :
    s.store.apply change = .ok t.store ∧ t.trace = s.trace ∧ t.errors = s.errors := by
  rw [run_update] at h
  cases happly : s.store.apply change with
  | error fault =>
    rw [happly] at h
    cases h
  | ok store =>
    rw [happly] at h
    obtain ⟨u, hnotify, ⟨hstore, htrace⟩, herrors⟩ :=
      run_notify_of_lenient hlenient { s with store }
    obtain rfl := (Prod.mk.inj (hnotify.symm.trans h)).2
    exact ⟨by rw [hstore], htrace, herrors⟩

end Lenient

/-- An evaluation that ends well has drawn and reported, and nothing else. -/
private theorem exists_of_run_evaluate_eq_ok {e : Eval α} {a : α}
    (h : (evaluate e).run around s = (.ok a, t)) :
    ∃ progress, e.run ⟨s.store, around.draws, true⟩ s.drawn = (.ok a, progress) ∧
      t = { s with
        drawn := progress.drawn
        errors := s.errors ++ progress.reports.map Fault.message } := by
  rw [run_evaluate] at h
  rcases he : e.run ⟨s.store, around.draws, true⟩ s.drawn with ⟨_, progress⟩
  rw [he] at h
  cases h
  exact ⟨progress, rfl, rfl⟩

/-- A list with gaps is assigned to the variable `v` as a whole, and there is a line that the list
stands for. -/
structure FillsGaps (around : Surroundings) (s : RunState) (name : Text) (index : Option Text)
    (source : Text) (v : Variable) (line : Text) : Prop where
  whole : index = none
  defined : s.store.get? name = some v
  list : Eval.isConcatenation source = true
  gaps : s.store.gaps source ≠ []
  line : ((Eval.concatenation source).run ⟨s.store, around.draws, true⟩ s.drawn).1 = .ok line

section Lenient

variable (hlenient : around.Lenient) {target name source : Text}

include hlenient

/-- What is assigned to an element is no text, and neither is its index, so nothing was reported. -/
private theorem errors_of_assign_element {index : Text}
    (h : (assign target name (some index) source).run around s = (.ok (), t)) :
    t.errors = s.errors := by
  obtain ⟨_, _, hget, h⟩ := exists_of_run_bind_eq_ok h
  cases hget
  split at h
  · obtain ⟨i, s₁, hi, h⟩ := exists_of_run_bind_eq_ok h
    obtain ⟨value, s₂, hvalue, h⟩ := exists_of_run_bind_eq_ok h
    obtain ⟨_, s₃, hupdate, h⟩ := exists_of_run_bind_eq_ok h
    cases h
    obtain ⟨p, hindex, rfl⟩ := exists_of_run_evaluate_eq_ok hi
    obtain ⟨q, hsource, rfl⟩ := exists_of_run_evaluate_eq_ok hvalue
    obtain ⟨happly, -, herrors⟩ := apply_of_run_update_eq_ok hlenient hupdate
    -- the element was there, so its index is an integer and its value no text
    obtain ⟨⟨a, xs⟩, -, happly⟩ := bind_eq_ok_iff.mp happly
    obtain ⟨k, hposition, happly⟩ := bind_eq_ok_iff.mp happly
    obtain ⟨x, helement, -⟩ := bind_eq_ok_iff.mp happly
    obtain ⟨n, rfl, -⟩ := Store.position_eq_ok_iff.mp hposition
    have hp := Eval.reports_value_of_ne_text (fun t ht => by cases ht) hindex
    have hq := Eval.reports_value_of_ne_text (Store.ne_text_of_elementValue helement) hsource
    rw [herrors, hp, hq]
    simp
  · obtain ⟨_, _, hthrow, -⟩ := exists_of_run_bind_eq_ok h
    cases hthrow

/-- What an assignment to a variable does if it does not fail. -/
private theorem exists_of_assign_whole
    (h : (assign target name none source).run around s = (.ok (), t)) :
    ∃ v value progress, s.store.get? name = some v ∧
      (Eval.value source).run ⟨s.store, around.draws, true⟩ s.drawn = (.ok value, progress) ∧
      t.store = s.store.define { v with value } ∧
      t.trace = s.trace.add .process (target ++ " <- ".toList ++ source) ∧
      t.errors = s.errors ++ progress.reports.map Fault.message := by
  obtain ⟨_, _, hget, h⟩ := exists_of_run_bind_eq_ok h
  cases hget
  obtain ⟨v, s₁, hlookup, h⟩ := exists_of_run_bind_eq_ok h
  obtain ⟨value, s₂, hvalue, h⟩ := exists_of_run_bind_eq_ok h
  obtain ⟨_, s₃, hupdate, h⟩ := exists_of_run_bind_eq_ok h
  cases h
  obtain ⟨hv, rfl⟩ : s.store.get? name = some v ∧ s₁ = s := by
    cases hs : s.store.lookup name true with
    | error fault =>
      rw [hs] at hlookup
      cases hlookup
    | ok w =>
      rw [hs] at hlookup
      cases hlookup
      exact ⟨Store.lookup_eq_ok_iff.mp hs, rfl⟩
  obtain ⟨progress, hsource, rfl⟩ := exists_of_run_evaluate_eq_ok hvalue
  obtain ⟨happly, htrace, herrors⟩ := apply_of_run_update_eq_ok hlenient hupdate
  rw [Store.apply_set hv] at happly
  refine ⟨v, value, progress, hv, hsource, (Except.ok.inj happly).symm, ?_, herrors⟩
  simp only [htrace]

/-- Nothing stops an assignment that fills gaps. -/
private theorem FillsGaps.run_assign (target : Text) {index : Option Text} {v : Variable}
    {line : Text} (h : FillsGaps around s name index source v line) :
    ∃ t, (assign target name none source).run around s = (.ok (), t) := by
  rcases hline : (Eval.concatenation source).run ⟨s.store, around.draws, true⟩ s.drawn with ⟨r, p⟩
  obtain rfl : r = .ok line := by rw [← h.line, hline]
  have hvalue : (Eval.value source).run ⟨s.store, around.draws, true⟩ s.drawn =
      (.ok (.text line), p) := by
    rw [Eval.run_eq_outcome] at hline ⊢
    rw [Eval.outcome_value_of_isConcatenation h.list, Eval.outcome_bind_ok hline]
    rfl
  rw [assign, run_bind_ok run_get, Store.lookup_eq_ok_iff.mpr h.defined, ofExcept_ok_bind,
    run_bind_ok (by rw [run_evaluate, hvalue])]
  obtain ⟨u, hnotify, -⟩ := run_notify_of_lenient hlenient { s with
    drawn := p.drawn
    errors := s.errors ++ p.reports.map Fault.message
    store := s.store.define { v with value := .text line } }
  have hupdate : (update (.set name (.text line) true)).run around { s with
      drawn := p.drawn
      errors := s.errors ++ p.reports.map Fault.message } = (.ok (), u) := by
    simp only [run_update, Store.apply_set h.defined, hnotify]
  rw [run_bind_ok hupdate]
  exact ⟨_, run_addNode _ _⟩

/-- **Filling gaps.** The messages name the gaps, and the variable gets a line with placeholders in
their places. -/
theorem FillsGaps.effects {index : Option Text} {v : Variable} {line : Text}
    (h : FillsGaps around s name index source v line)
    (hrun : (assign target name none source).run around s = (.ok (), t)) :
    t.errors = s.errors ++ ((s.store.gaps source).map fun p =>
        (Fault.undefinedVariable p false).message).toArray ∧
      t.store = s.store.define { v with value := .text line } ∧
      t.trace = s.trace.add .process (target ++ " <- ".toList ++ source) ∧
      ∃ shown, line = Text.join [' '] shown ∧
        List.Forall₂ (fun p x => s.store.isGap p = true → x = Eval.placeholder p)
          (splitParts source) shown := by
  obtain ⟨w, value, progress, hw, hvalue, hstore, htrace, herrors⟩ :=
    exists_of_assign_whole hlenient hrun
  obtain rfl := Option.some.inj (h.defined.symm.trans hw)
  rw [Eval.run_eq_outcome, Eval.outcome_value_of_isConcatenation h.list] at hvalue
  obtain ⟨line', q, hline, hpure⟩ := Eval.outcome_bind_eq_ok hvalue
  cases hpure
  obtain rfl : line' = line := by
    have hsame := h.line
    rw [Eval.run_eq_outcome, hline] at hsame
    exact Except.ok.inj hsame
  obtain ⟨hreports, hshown⟩ := Eval.outcome_concatenation_eq_ok rfl hline
  refine ⟨?_, hstore, htrace, hshown⟩
  rw [herrors, hreports]
  simp [Function.comp_def]

/-- **Messages mean that nothing was done**, unless gaps were filled. -/
theorem errors_of_assign {index : Option Text}
    (hgaps : ∀ v line, ¬ FillsGaps around s name index source v line)
    (h : (assign target name index source).run around s = (.ok (), t)) : t.errors = s.errors := by
  cases index with
  | some index => exact errors_of_assign_element hlenient h
  | none =>
    obtain ⟨v, value, progress, hv, hvalue, -, -, herrors⟩ := exists_of_assign_whole hlenient h
    rw [Eval.run_eq_outcome] at hvalue
    suffices hnone : progress.reports = #[] by
      rw [herrors, hnone]
      simp
    cases hlist : Eval.isConcatenation source with
    | false =>
      have hquiet := Eval.quiet_value_of_not_isConcatenation hlist
        ⟨s.store, around.draws, true⟩ ⟨s.drawn, #[]⟩
      rwa [hvalue] at hquiet
    | true =>
      rw [Eval.outcome_value_of_isConcatenation hlist] at hvalue
      obtain ⟨line, q, hline, hpure⟩ := Eval.outcome_bind_eq_ok hvalue
      cases hpure
      obtain ⟨hreports, -⟩ := Eval.outcome_concatenation_eq_ok rfl hline
      have hclosed : s.store.gaps source = [] := by
        by_contra hne
        refine hgaps v line ⟨rfl, hv, hlist, hne, ?_⟩
        rw [Eval.run_eq_outcome, hline]
      rw [hreports]
      simp [hclosed]

end Lenient

end Exec

/-! ### Turns -/

namespace Machine

open Exec (FillsGaps)

variable {program : Program} {around : Surroundings}

/-- **A turn that assigns** carries out the assignment and notes down a fault in it. -/
theorem turn_assign {c d : Config program} {l : Line} {target name source : Text}
    {index : Option Text} (hnext : next? c = some ⟨l, .assign target name index source⟩)
    (hturn : turn around c = some d) :
    (Exec.assign target name index source).run around c.1 = (.ok (), d.1) ∨
      ∃ fault t number, (Exec.assign target name index source).run around c.1 = (.error fault, t) ∧
        d.1 = t.report number fault := by
  obtain ⟨s, _ | ⟨f, rest⟩⟩ := c
  · cases hnext
  obtain ⟨hlt, hst⟩ := next?_eq_some_iff.mp hnext
  obtain ⟨hfits, next, hproceed⟩ := proceed_of_lt hlt hst rest
  have hassign : proceed f rest =
      Exec.assign target name index source >>= fun _ => pure (next none) := by
    rw [hproceed, Exec.statement, bind_assoc]
    rfl
  rw [turn_eq, hassign, Exec.run_bind] at hturn
  split at hturn
  · cases hturn
  rcases hrun : (Exec.assign target name index source).run around s with ⟨fault | _, t⟩
  · rw [hrun] at hturn
    cases hturn
    exact .inr ⟨fault, t, lineOf f, rfl, rfl⟩
  · rw [hrun] at hturn
    cases hturn
    exact .inl rfl

/-- **Assignments are atomic.** If the observer does not object, a turn that carries out an
assignment and leaves a message leaves the variables and the trace as they were, unless it fills
gaps in a list. An assignment that fills gaps is carried out: there is one message for each gap, in
order, the variable gets the line with placeholders in the places of the gaps, and there is a node
for it. -/
theorem assignment_atomic_unless_gaps (hlenient : around.Lenient) {c d : Config program}
    {l : Line} {target name source : Text} {index : Option Text}
    (hnext : next? c = some ⟨l, .assign target name index source⟩)
    (hturn : turn around c = some d) :
    ((∀ v line, ¬ FillsGaps around c.1 name index source v line) → d.1.errors ≠ c.1.errors →
      d.1.store = c.1.store ∧ d.1.trace = c.1.trace) ∧
    ∀ v line, FillsGaps around c.1 name index source v line →
      d.1.errors = c.1.errors ++ ((c.1.store.gaps source).map fun p =>
          (Fault.undefinedVariable p false).message).toArray ∧
        d.1.store = c.1.store.define { v with value := .text line } ∧
        d.1.trace = c.1.trace.add .process (target ++ " <- ".toList ++ source) ∧
        ∃ shown, line = Text.join [' '] shown ∧
          List.Forall₂ (fun p x => c.1.store.isGap p = true → x = Eval.placeholder p)
            (splitParts source) shown := by
  have hrun := turn_assign hnext hturn
  refine ⟨fun hgaps herrors => ?_, fun v line hfills => ?_⟩
  · rcases hrun with hok | ⟨fault, t, number, herror, hreport⟩
    · exact absurd (Exec.errors_of_assign hlenient hgaps hok) herrors
    · have hkept : c.1.Untouched t := Exec.atomic_assign hlenient target name index source herror
      rw [hreport]
      exact hkept
  · obtain rfl := hfills.whole
    obtain ⟨t, hdone⟩ := hfills.run_assign hlenient target
    rcases hrun with hok | ⟨fault, u, number, herror, -⟩
    · exact hfills.effects hlenient hok
    · cases hdone.symm.trans herror

/-! ### A list with a gap -/

/-- A program that defines a text and assigns to it. -/
def assigning (source : Text) : Program where
  statements := #[⟨⟨1, "Definir x Como Cadena".toList⟩, .declare ["x".toList] "Cadena".toList⟩,
    ⟨⟨2, "x <- ".toList ++ source⟩, .assign "x".toList "x".toList none source⟩]
  fits i h := by
    obtain rfl | rfl : i = 0 ∨ i = 1 := by
      have hlt : i < 2 := h
      omega
    · trivial
    · trivial

/-- The program when it comes to its assignment. -/
def beforeAssigning (source : Text) : Config (assigning source) :=
  after .unattended (assigning source) 2

private theorem next?_beforeAssigning (source : Text) :
    next? (beforeAssigning source) = some ⟨⟨2, "x <- ".toList ++ source⟩,
      .assign "x".toList "x".toList none source⟩ := rfl

private theorem turn_beforeAssigning (source : Text) :
    turn .unattended (beforeAssigning source) =
      some (goOn .unattended (beforeAssigning source)) := by
  have hsome : turn .unattended (beforeAssigning source) ≠ none := by
    rw [Ne, turn_eq_none_iff]
    rintro (h | h)
    · cases h
    · cases h
  obtain ⟨d, hd⟩ := Option.ne_none_iff_exists'.mp hsome
  rw [goOn, hd, Option.getD_some]

/-- A list with a gap, and with a part that is no expression. -/
def brokenList : Text := "\"a\", y, (".toList

/-- The gap is reported, and then the broken part ends the assignment. -/
theorem assignment_atomic_brokenList :
    (goOn .unattended (beforeAssigning brokenList)).1.errors.size = 2 ∧
      (goOn .unattended (beforeAssigning brokenList)).1.store =
        (beforeAssigning brokenList).1.store ∧
      (goOn .unattended (beforeAssigning brokenList)).1.trace =
        (beforeAssigning brokenList).1.trace := by
  have hsize : (goOn .unattended (beforeAssigning brokenList)).1.errors.size = 2 := by
    decide +kernel
  have hnone : (beforeAssigning brokenList).1.errors.size = 0 := rfl
  have hbroken : ((Eval.concatenation brokenList).run
      ⟨(beforeAssigning brokenList).1.store, Surroundings.unattended.draws, true⟩
      (beforeAssigning brokenList).1.drawn).1.isOk = false := by
    decide +kernel
  refine ⟨hsize, (assignment_atomic_unless_gaps Surroundings.lenient_unattended
    (next?_beforeAssigning brokenList) (turn_beforeAssigning brokenList)).1 ?_ ?_⟩
  · intro v line hfills
    rw [hfills.line] at hbroken
    cases hbroken
  · intro h
    rw [h, hnone] at hsize
    cases hsize

/-- A list with a gap. -/
def gapList : Text := "\"a\", y".toList

private theorem read_definition (lines : List Line) (i : Nat) :
    Action.read lines i "Definir x Como Cadena".toList =
      .declare ["x".toList] "Cadena".toList := rfl

private theorem read_gapList (lines : List Line) (i : Nat) :
    Action.read lines i ("x <- ".toList ++ gapList) =
      .assign "x".toList "x".toList none gapList := rfl

private theorem ofSource_gapList :
    Program.ofSource ("Definir x Como Cadena\nx <- ".toList ++ gapList) = assigning gapList := by
  have hlines : Line.ofSource ("Definir x Como Cadena\nx <- ".toList ++ gapList) =
      [⟨1, "Definir x Como Cadena".toList⟩, ⟨2, "x <- ".toList ++ gapList⟩] := by
    decide +kernel
  rw [Program.ofSource, hlines]
  simp only [Program.ofLines, Program.statementsOf, List.mapIdx_cons, List.mapIdx_nil,
    read_definition, read_gapList, assigning]

/-- **A message, and the assignment is carried out.** The variable gets the line with a placeholder
in the place of the gap. -/
theorem assignment_carried_out_gapList :
    Program.ofSource ("Definir x Como Cadena\nx <- ".toList ++ gapList) = assigning gapList ∧
      (beforeAssigning gapList).1.errors = #[] ∧
      (goOn .unattended (beforeAssigning gapList)).1.errors =
        #["Error: La variable \"y\" no ha sido definida.".toList] ∧
      (beforeAssigning gapList).1.store = ⟨[⟨"x".toList, .string, .text []⟩]⟩ ∧
      (goOn .unattended (beforeAssigning gapList)).1.store =
        ⟨[⟨"x".toList, .string, .text "a [y?]".toList⟩]⟩ ∧
      (goOn .unattended (beforeAssigning gapList)).1.trace.nodes.size =
        (beforeAssigning gapList).1.trace.nodes.size + 1 := by
  refine ⟨ofSource_gapList, rfl, ?_, rfl, rfl, rfl⟩
  decide +kernel

end Machine

end Pseudocode
