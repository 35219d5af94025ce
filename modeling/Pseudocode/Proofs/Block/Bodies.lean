import Pseudocode.Program
import Pseudocode.Run.Statement

/-!
# The bodies of a conditional

The lines of a conditional, of its clauses and of its end part what lies between them into bodies,
`Branches.bodies`. A conditional whose condition holds runs its first body. One whose condition does
not hold looks at its first clause only: a clause that is read as a conditional of its own decides
in the same way, and behind any other clause everything up to the end is run. `Reached` says which
lines can be run in this way.

**Only bodies are reached if and only if every clause but the last is read as a conditional**
(`reached_mem_bodies_iff`). Otherwise the lines behind a clause `SiNo`, or behind a clause `SiNo Si`
without its `Entonces`, are run as one with the clauses that follow and their bodies.
-/

namespace Pseudocode

/-- The line at the position is one of the span. -/
def Span.Has (span : Span) (p : Nat) : Prop := span.start ≤ p ∧ p < span.stop

instance (span : Span) (p : Nat) : Decidable (span.Has p) := inferInstanceAs (Decidable (_ ∧ _))

namespace Branches

/-! ### Clauses in their order -/

/-- Clauses one after the other, behind the position `i` and before the position `stop`. -/
def InOrder (i : Nat) : List Clause → Nat → Prop
  | [], stop => i < stop
  | c :: rest, stop => i < c.index ∧ InOrder c.index rest stop

/-- What lies strictly between the position `i`, the clauses and the position `stop`. -/
def between (i : Nat) : List Clause → Nat → List Span
  | [], stop => [⟨i + 1, stop⟩]
  | c :: rest, stop => ⟨i + 1, c.index⟩ :: between c.index rest stop

/-- The bodies of a conditional at position `i`. -/
def bodies (i : Nat) (b : Branches) : List Span := between i b.clauses b.terminator

private theorem InOrder.lt {i stop : Nat} {cs : List Clause} (h : InOrder i cs stop) :
    i < stop := by
  induction cs generalizing i with
  | nil => exact h
  | cons c rest ih => exact Nat.lt_trans h.1 (ih h.2)

private theorem InOrder.clause_bounds {i stop : Nat} {cs : List Clause} (h : InOrder i cs stop)
    {c : Clause} (hc : c ∈ cs) : i < c.index ∧ c.index < stop := by
  induction cs generalizing i with
  | nil => cases hc
  | cons d rest ih =>
    rcases List.mem_cons.mp hc with rfl | hc
    · exact ⟨h.1, h.2.lt⟩
    · exact ⟨Nat.lt_trans h.1 (ih h.2 hc).1, (ih h.2 hc).2⟩

private theorem InOrder.body_bounds {i stop : Nat} {cs : List Clause} (h : InOrder i cs stop)
    {body : Span} (hbody : body ∈ between i cs stop) : i < body.start ∧ body.stop ≤ stop := by
  induction cs generalizing i with
  | nil =>
    obtain rfl := List.mem_singleton.mp hbody
    exact ⟨Nat.lt_succ_self i, Nat.le_refl _⟩
  | cons c rest ih =>
    rcases List.mem_cons.mp hbody with rfl | hbody
    · exact ⟨Nat.lt_succ_self i, Nat.le_of_lt h.2.lt⟩
    · exact ⟨Nat.lt_trans h.1 (ih h.2 hbody).1, (ih h.2 hbody).2⟩

/-- No clause stands in a body. -/
private theorem InOrder.not_has_clause {i stop : Nat} {cs : List Clause} (h : InOrder i cs stop)
    {body : Span} (hbody : body ∈ between i cs stop) {c : Clause} (hc : c ∈ cs) :
    ¬ body.Has c.index := by
  induction cs generalizing i with
  | nil => cases hc
  | cons d rest ih =>
    rintro ⟨hstart, hstop⟩
    rcases List.mem_cons.mp hbody with rfl | hbody
    · rcases List.mem_cons.mp hc with rfl | hc
      · exact Nat.lt_irrefl _ hstop
      · exact Nat.lt_asymm hstop (h.2.clause_bounds hc).1
    · rcases List.mem_cons.mp hc with rfl | hc
      · exact Nat.lt_irrefl _ (Nat.lt_of_lt_of_le (h.2.body_bounds hbody).1 hstart)
      · exact ih h.2 hbody hc ⟨hstart, hstop⟩

/-- A line stands in one body at most. -/
theorem InOrder.body_unique {i stop p : Nat} {cs : List Clause} (h : InOrder i cs stop)
    {body body' : Span} (hbody : body ∈ between i cs stop) (hbody' : body' ∈ between i cs stop)
    (hp : body.Has p) (hp' : body'.Has p) : body = body' := by
  induction cs generalizing i with
  | nil => rw [List.mem_singleton.mp hbody, List.mem_singleton.mp hbody']
  | cons c rest ih =>
    -- a line of the first body stands before the first clause, any other one behind it
    have hbehind {span : Span} (hspan : span ∈ between c.index rest stop) (hp : span.Has p) :
        c.index < p := Nat.lt_of_lt_of_le (h.2.body_bounds hspan).1 hp.1
    rcases List.mem_cons.mp hbody with rfl | hbody <;>
      rcases List.mem_cons.mp hbody' with rfl | hbody'
    · rfl
    · exact absurd hp.2 (Nat.lt_asymm (hbehind hbody' hp'))
    · exact absurd hp'.2 (Nat.lt_asymm (hbehind hbody hp))
    · exact ih h.2 hbody hbody'

/-! ### Clauses of clauses -/

/-- **A clause has the clauses behind it.** The search that starts behind the first clause ends
where the search that found it does. -/
theorem scan_behind {size nested i : Nat} {ls : List Line} {c : Clause} {rest : List Clause}
    (h : (scan size nested i ls).clauses = c :: rest) :
    i ≤ c.index ∧ scan size 0 (c.index + 1) (ls.drop (c.index + 1 - i)) =
      ⟨rest, (scan size nested i ls).terminator⟩ := by
  induction ls generalizing nested i with
  | nil => cases h
  | cons l ls ih =>
    have hlater {n : Nat} (hn : (scan size n (i + 1) ls).clauses = c :: rest) :
        i ≤ c.index ∧ scan size 0 (c.index + 1) ((l :: ls).drop (c.index + 1 - i)) =
          ⟨rest, (scan size n (i + 1) ls).terminator⟩ := by
      obtain ⟨hi, hscan⟩ := ih hn
      refine ⟨Nat.le_of_succ_le hi, ?_⟩
      rw [← hscan, show c.index + 1 - i = (c.index + 1 - (i + 1)) + 1 by omega, List.drop_succ_cons]
    simp only [scan] at h ⊢
    split at h
    · next hopens =>
      rw [if_pos hopens]
      exact hlater h
    · next hopens =>
      rw [if_neg hopens]
      split at h
      · next hcloses =>
        rw [if_pos hcloses]
        cases nested with
        | zero => cases h
        | succ outer => exact hlater h
      · next hcloses =>
        rw [if_neg hcloses]
        split at h
        · next hn =>
          rw [if_pos hn]
          cases hclause : clauseOf? i l with
          | none =>
            rw [hclause] at h
            exact hlater h
          | some d =>
            rw [hclause] at h
            obtain ⟨rfl, rfl⟩ := List.cons.inj h
            obtain rfl := clauseOf?_index hclause
            refine ⟨Nat.le_refl _, ?_⟩
            rw [Nat.add_sub_cancel_left, List.drop_one]
            rfl
        · next hn =>
          rw [if_neg hn]
          exact hlater h

/-- The same, for a conditional whose first body starts at `start`. -/
theorem ofLines_behind {lines : List Line} {start : Nat} {c : Clause} {rest : List Clause}
    (h : (ofLines lines start).clauses = c :: rest) :
    start ≤ c.index ∧ ofLines lines (c.index + 1) = ⟨rest, (ofLines lines start).terminator⟩ := by
  obtain ⟨hle, hscan⟩ := scan_behind h
  refine ⟨hle, ?_⟩
  rw [List.drop_drop, Nat.add_sub_cancel' (Nat.le_succ_of_le hle)] at hscan
  exact hscan

private theorem inOrder_ofLines {lines : List Line} {i : Nat} (h : i < lines.length) :
    InOrder i (ofLines lines (i + 1)).clauses (ofLines lines (i + 1)).terminator := by
  obtain ⟨cs, hcs⟩ : ∃ cs, cs = (ofLines lines (i + 1)).clauses := ⟨_, rfl⟩
  induction cs generalizing i with
  | nil =>
    rw [← hcs]
    exact (ofLines_within h).lower
  | cons c rest ih =>
    have hc := (ofLines_within h).clauses c (by rw [← hcs]; exact List.mem_cons_self)
    obtain ⟨hle, hbehind⟩ := ofLines_behind hcs.symm
    have hlt : c.index < lines.length := Nat.lt_of_lt_of_le hc.2 (ofLines_within h).upper
    have hrest := ih hlt (by rw [hbehind])
    rw [hbehind] at hrest
    rw [← hcs]
    exact ⟨hle, hrest⟩

end Branches

/-! ### Conditionals in a program -/

/-- The blocks of a conditional are looked for behind its line. -/
private theorem Action.branches_of_read {lines : List Line} {i : Nat} {t condition : Text}
    {b : Branches} {chained : Bool} (h : Action.read lines i t = .conditional condition b chained) :
    b = .ofLines lines (i + 1) := by
  unfold Action.read at h
  split at h
  · cases h
  split at h
  · unfold Action.readDeclare at h
    split at h <;> cases h
  split at h
  · unfold Action.readDimension at h
    split at h <;> cases h
  split at h
  · cases h
  split at h
  · cases h
  split at h
  · cases h
  split at h
  · cases h
  split at h
  · cases h
  split at h
  · cases h
    rfl
  split at h
  · cases h
    rfl
  split at h
  · unfold Action.readAssign at h
    split at h <;> cases h
  · cases h

namespace Program

/-- The statement at the position is a conditional with these branches. -/
def Decides (program : Program) (i : Nat) (b : Branches) : Prop :=
  ∃ l condition chained, program.statements[i]? = some ⟨l, .conditional condition b chained⟩

/-- The clause is read as a conditional of its own. -/
def Chains (program : Program) (c : Clause) : Prop :=
  Exec.isChained program.statements[c.index]? = true

instance (program : Program) (c : Clause) : Decidable (program.Chains c) :=
  inferInstanceAs (Decidable (_ = true))

private theorem Decides.unique {program : Program} {i : Nat} {b b' : Branches}
    (h : program.Decides i b) (h' : program.Decides i b') : b = b' := by
  obtain ⟨l, condition, chained, hst⟩ := h
  obtain ⟨l', condition', chained', hst'⟩ := h'
  cases hst.symm.trans hst'
  rfl

/-- A conditional ends behind its header. -/
theorem Decides.lt_terminator {program : Program} {i : Nat} {b : Branches}
    (h : program.Decides i b) : i < b.terminator := by
  obtain ⟨l, condition, chained, hst⟩ := h
  obtain ⟨hlt, hst⟩ := Array.getElem?_eq_some_iff.mp hst
  have hfits := program.fits i hlt
  rw [hst] at hfits
  exact hfits.lower

/-- A clause that is read as a conditional of its own decides by itself. -/
theorem Chains.decides {program : Program} {c : Clause} (h : program.Chains c) :
    ∃ b, program.Decides c.index b := by
  rw [Chains] at h
  cases hst : program.statements[c.index]? with
  | none =>
    rw [hst] at h
    cases h
  | some st =>
    obtain ⟨l, a⟩ := st
    rw [hst] at h
    cases a with
    | conditional condition b chained => exact ⟨b, l, condition, chained, hst⟩
    | _ => cases h

section Lines

variable {lines : List Line} {i : Nat} {b : Branches}

private theorem Decides.eq_ofLines (h : (ofLines lines).Decides i b) :
    i < lines.length ∧ b = .ofLines lines (i + 1) := by
  obtain ⟨l, condition, chained, hst⟩ := h
  simp only [ofLines, statementsOf, List.getElem?_toArray, List.getElem?_mapIdx,
    Option.map_eq_some_iff] at hst
  obtain ⟨l, hl, hst⟩ := hst
  exact ⟨(List.getElem?_eq_some_iff.mp hl).1,
    Action.branches_of_read (congrArg Statement.action hst)⟩

/-- The clauses of a conditional stand in order between its header and its end. -/
theorem Decides.inOrder (h : (ofLines lines).Decides i b) :
    Branches.InOrder i b.clauses b.terminator := by
  obtain ⟨hi, rfl⟩ := h.eq_ofLines
  exact Branches.inOrder_ofLines hi

/-- A first clause that is read as a conditional has the clauses behind it and the same end. -/
private theorem Decides.behind {c : Clause} {rest : List Clause} (h : (ofLines lines).Decides i b)
    (hb : b.clauses = c :: rest) (hc : (ofLines lines).Chains c) :
    (ofLines lines).Decides c.index ⟨rest, b.terminator⟩ := by
  obtain ⟨b', hb'⟩ := hc.decides
  obtain ⟨-, rfl⟩ := h.eq_ofLines
  obtain rfl : b' = _ := hb'.eq_ofLines.2.trans (Branches.ofLines_behind hb).2
  exact hb'

end Lines

end Program

/-! ### Lines that a conditional can run -/

/-- The lines that a conditional at a position may run, by itself or through the clauses that it
hands over to. -/
inductive Reached (program : Program) : Nat → Span → Prop where
  /-- The first body, if the condition holds. -/
  | first {i : Nat} {b : Branches} :
      program.Decides i b → Reached program i (Action.thenBody i b)
  /-- All that stands behind a first clause without a condition. -/
  | rest {i : Nat} {b : Branches} {c : Clause} {more : List Clause} :
      program.Decides i b → b.clauses = c :: more → ¬ program.Chains c →
      Reached program i ⟨c.index + 1, b.terminator⟩
  /-- What a first clause with a condition may run. -/
  | chain {i : Nat} {b : Branches} {c : Clause} {more : List Clause} {span : Span} :
      program.Decides i b → b.clauses = c :: more → program.Chains c →
      Reached program c.index span → Reached program i span

section Reached

variable {lines : List Line} {i : Nat} {b : Branches} {span : Span}

/-- What a conditional runs stands behind it. -/
private theorem Reached.lt (h : Reached (.ofLines lines) i span) : i < span.start := by
  induction h with
  | first hb => exact Nat.lt_succ_self _
  | rest hb hclauses _ =>
    have := hb.inOrder
    rw [hclauses] at this
    exact Nat.lt_succ_of_lt this.1
  | chain hb hclauses _ _ ih =>
    have := hb.inOrder
    rw [hclauses] at this
    exact Nat.lt_trans this.1 ih

private theorem reached_nil_iff {program : Program} {stop : Nat}
    (h : program.Decides i ⟨[], stop⟩) :
    Reached program i span ↔ span = ⟨i + 1, stop⟩ := by
  constructor
  · intro hspan
    cases hspan with
    | first hb =>
      obtain rfl := h.unique hb
      rfl
    | rest hb hclauses _ | chain hb hclauses _ _ =>
      obtain rfl := h.unique hb
      cases hclauses
  · rintro rfl
    exact .first h

private theorem reached_cons_iff {program : Program} {c : Clause} {more : List Clause} {stop : Nat}
    (h : program.Decides i ⟨c :: more, stop⟩) :
    Reached program i span ↔ span = ⟨i + 1, c.index⟩ ∨
      (¬ program.Chains c ∧ span = ⟨c.index + 1, stop⟩) ∨
      (program.Chains c ∧ Reached program c.index span) := by
  constructor
  · intro hspan
    cases hspan with
    | first hb =>
      obtain rfl := h.unique hb
      exact .inl rfl
    | rest hb hclauses hc =>
      obtain rfl := h.unique hb
      obtain ⟨rfl, -⟩ := List.cons.inj hclauses
      exact .inr (.inl ⟨hc, rfl⟩)
    | chain hb hclauses hc hspan =>
      obtain rfl := h.unique hb
      obtain ⟨rfl, -⟩ := List.cons.inj hclauses
      exact .inr (.inr ⟨hc, hspan⟩)
  · rintro (rfl | ⟨hc, rfl⟩ | ⟨hc, hspan⟩)
    · exact .first h
    · exact .rest h rfl hc
    · exact .chain h rfl hc hspan

/-- **Only bodies are run if and only if every clause but the last is read as a conditional.** -/
theorem reached_mem_bodies_iff (h : (Program.ofLines lines).Decides i b) :
    (∀ span, Reached (.ofLines lines) i span → span ∈ b.bodies i) ↔
      ∀ c ∈ b.clauses.dropLast, (Program.ofLines lines).Chains c := by
  obtain ⟨cs, stop⟩ := b
  induction cs generalizing i with
  | nil => simp [reached_nil_iff h, Branches.bodies, Branches.between]
  | cons c more ih =>
    have horder := h.inOrder
    simp only [reached_cons_iff h]
    by_cases hc : (Program.ofLines lines).Chains c
    · -- the clause decides about the rest, and what it runs is not the body before it
      rw [show (∀ d ∈ (c :: more).dropLast, (Program.ofLines lines).Chains d) ↔
        ∀ d ∈ more.dropLast, (Program.ofLines lines).Chains d by cases more <;> simp [hc],
        ← ih (h.behind rfl hc)]
      constructor
      · intro hall span hspan
        rcases List.mem_cons.mp (hall span (.inr (.inr ⟨hc, hspan⟩))) with rfl | hmem
        · exact absurd hspan.lt (Nat.not_lt.mpr (Nat.succ_le_of_lt horder.1))
        · exact hmem
      · rintro hall span (rfl | ⟨hnot, -⟩ | ⟨-, hspan⟩)
        · exact List.mem_cons_self
        · exact absurd hc hnot
        · exact List.mem_cons_of_mem _ (hall span hspan)
    · cases more with
      | nil =>
        refine iff_of_true ?_ (by simp)
        rintro span (rfl | ⟨-, rfl⟩ | ⟨hchains, -⟩)
        · exact List.mem_cons_self
        · exact List.mem_cons_of_mem _ (List.mem_singleton.mpr rfl)
        · exact absurd hchains hc
      | cons d more =>
        -- all that stands behind the clause is run, and with it the next clause
        refine iff_of_false (fun hall => ?_) fun hall => hc (hall c List.mem_cons_self)
        have hmem := hall ⟨c.index + 1, stop⟩ (.inr (.inl ⟨hc, rfl⟩))
        have hd : d ∈ c :: d :: more := by simp
        exact horder.not_has_clause hmem hd
          ⟨horder.2.1, (horder.clause_bounds hd).2⟩

end Reached

/-! ### Clauses that a conditional can hand over to -/

/-- The conditional at position `i` may leave it to the statement at the given position to
decide. -/
inductive Leads (program : Program) (i : Nat) : Nat → Prop where
  | here : Leads program i i
  | clause {j : Nat} {b : Branches} {c : Clause} {more : List Clause} :
      Leads program i j → program.Decides j b → b.clauses = c :: more → program.Chains c →
      Leads program i c.index

/-- What a later clause may run is what the conditional may run. -/
theorem Leads.reached {program : Program} {i j : Nat} {span : Span} (h : Leads program i j)
    (hspan : Reached program j span) : Reached program i span := by
  induction h with
  | here => exact hspan
  | clause _ hb hclauses hc ih => exact ih (.chain hb hclauses hc hspan)

section Leads

variable {lines : List Line} {i j : Nat} {b : Branches} (hb : (Program.ofLines lines).Decides i b)
include hb

/-- A conditional hands over to its own clauses only. -/
private theorem Leads.exists_clause (h : Leads (.ofLines lines) i j) :
    (j = i ∨ ∃ c ∈ b.clauses, c.index = j) ∧ ∃ more, more <:+ b.clauses ∧
      (Program.ofLines lines).Decides j ⟨more, b.terminator⟩ := by
  induction h with
  | here => exact ⟨.inl rfl, b.clauses, List.suffix_rfl, hb⟩
  | clause _ hb' hclauses hc ih =>
    obtain ⟨-, more, hmore, hdecides⟩ := ih
    obtain rfl := hdecides.unique hb'
    obtain rfl : more = _ := hclauses
    exact ⟨.inr ⟨_, hmore.subset List.mem_cons_self, rfl⟩, _,
      (List.suffix_cons _ _).trans hmore, hdecides.behind rfl hc⟩

/-- No body holds a line that decides about it. -/
theorem Leads.not_has (h : Leads (.ofLines lines) i j) {body : Span} (hbody : body ∈ b.bodies i) :
    ¬ body.Has j := by
  rcases (h.exists_clause hb).1 with rfl | ⟨c, hc, rfl⟩
  · exact fun hj => Nat.not_lt.mpr hj.1 (hb.inOrder.body_bounds hbody).1
  · exact hb.inOrder.not_has_clause hbody hc

end Leads

end Pseudocode
