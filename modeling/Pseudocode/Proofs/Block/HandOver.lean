import Pseudocode.Proofs.Block.Bodies
import Pseudocode.Proofs.Block.Levels

/-!
# Clauses that hand over

A conditional knows all of its clauses, but when its condition does not hold it turns to the first
of them only, and a clause with a condition of its own is searched for branches anew, from its own
line on. This module shows that **nothing is lost or gained on the way**: the branches of a clause
are the clauses behind it and the same closing line (`HandsOver.behind`), so whoever goes on from
first clause to first clause (`Followed`) comes to each clause once, in their order, and to the end
of the conditional.

The searches agree although each starts its count of open conditionals at zero, because a clause is
only ever found where that count is zero (`Branches.scan_behind`). Lines that are missing or one too
many make no difference: the same lines are counted by all of them.
-/

namespace Pseudocode.Branches

/-- The positions that are passed on the way from first clause to first clause, for a conditional
whose first body starts at the given line, and the end of the last one. -/
inductive Followed (lines : List Line) : Nat → List Nat → Nat → Prop where
  /-- Without a clause, the conditional itself is the last one. -/
  | last {start : Nat} : (ofLines lines start).elseIndex? = none →
      Followed lines start [] (ofLines lines start).terminator
  /-- The first clause is searched for branches like a conditional. -/
  | next {start c stop : Nat} {cs : List Nat} : (ofLines lines start).elseIndex? = some c →
      Followed lines (c + 1) cs stop → Followed lines start (c :: cs) stop

/-- The branches belong to the conditional whose first body starts at `start`, and to each of its
clauses belongs what is behind it. -/
structure HandsOver (lines : List Line) (start : Nat) (b : Branches) : Prop where
  /-- The conditional ends where its block does. -/
  terminator_eq : b.terminator = Family.si.blockEnd lines start
  /-- The clauses are the lines at the level of the conditional that have the shape of a clause. -/
  mem_iff : ∀ c, c ∈ b.clauses ↔
    ∃ l, Family.si.Owns lines start c.index l ∧ clauseOf? c.index l = some c
  /-- The first clause is the one that is turned to. -/
  elseIndex?_eq : b.elseIndex? = (b.clauses.map (·.index))[0]?
  /-- The clauses stand in the order of their lines. -/
  increasing : (b.clauses.map (·.index)).Pairwise (· < ·)
  /-- They stand behind the line of the conditional and before the closing line. -/
  between : ∀ c ∈ b.clauses, start ≤ c.index ∧ c.index < b.terminator
  /-- A clause has the clauses behind it and the same closing line. -/
  behind : ∀ k c, b.clauses[k]? = some c →
    ofLines lines (c.index + 1) = ⟨b.clauses.drop (k + 1), b.terminator⟩
  /-- From first clause to first clause, all of them are passed, up to the same closing line. -/
  followed_iff : ∀ cs stop, Followed lines start cs stop ↔
    cs = b.clauses.map (·.index) ∧ stop = b.terminator

section OfLines

variable {lines : List Line} {start : Nat} {c : Clause}

private theorem terminator_ofLines (lines : List Line) (start : Nat) :
    (ofLines lines start).terminator = Family.si.blockEnd lines start := by
  rw [ofLines, branches_scan_eq_gather]
  exact gather_snd _ _ _ _ _ _

/-- **The clauses of a conditional are its own lines** that have the shape of a clause. -/
theorem mem_clauses_ofLines_iff : c ∈ (ofLines lines start).clauses ↔
    ∃ l, Family.si.Owns lines start c.index l ∧ clauseOf? c.index l = some c := by
  rw [ofLines, branches_scan_eq_gather, mem_gather_iff]
  constructor
  · rintro ⟨j, l, howns, hclause⟩
    obtain rfl := clauseOf?_index hclause
    exact ⟨l, howns, hclause⟩
  · rintro ⟨l, howns, hclause⟩
    exact ⟨c.index, l, howns, hclause⟩

private theorem between_of_mem (h : c ∈ (ofLines lines start).clauses) :
    start ≤ c.index ∧ c.index < (ofLines lines start).terminator := by
  obtain ⟨l, howns, -⟩ := mem_clauses_ofLines_iff.mp h
  rw [terminator_ofLines]
  exact ⟨howns.atLevel.1, howns.atLevel.2.1⟩

/-- **A clause has the clauses behind it**, and it ends where the conditional does. -/
theorem ofLines_of_getElem? {k : Nat} (h : (ofLines lines start).clauses[k]? = some c) :
    ofLines lines (c.index + 1) =
      ⟨(ofLines lines start).clauses.drop (k + 1), (ofLines lines start).terminator⟩ := by
  induction k generalizing start with
  | zero =>
    obtain ⟨rest, hrest⟩ := List.head?_eq_some_iff.mp (List.head?_eq_getElem?.trans h)
    rw [(ofLines_behind hrest).2, hrest, List.drop_one, List.tail_cons]
  | succ k ih =>
    -- the first clause has all but itself, and the clause in question among them
    obtain ⟨d, rest, hrest⟩ : ∃ d rest, (ofLines lines start).clauses = d :: rest :=
      List.exists_cons_of_ne_nil fun hnil => by
        rw [hnil] at h
        cases h
    have hfirst := (ofLines_behind hrest).2
    have hk : (ofLines lines (d.index + 1)).clauses[k]? = some c := by
      rw [hfirst]
      rwa [hrest, List.getElem?_cons_succ] at h
    rw [ih hk, hfirst, hrest, List.drop_succ_cons]

private theorem increasing_clauses (lines : List Line) (start : Nat) :
    ((ofLines lines start).clauses.map (·.index)).Pairwise (· < ·) := by
  rw [List.pairwise_map, List.pairwise_iff_getElem]
  intro i j hi hj hij
  have hfirst := ofLines_of_getElem? (List.getElem?_eq_getElem hi)
  -- a later clause is one of those that an earlier one has
  have hmem : (ofLines lines start).clauses[j] ∈
      (ofLines lines ((ofLines lines start).clauses[i].index + 1)).clauses := by
    rw [hfirst]
    refine List.mem_iff_getElem?.mpr ⟨j - (i + 1), ?_⟩
    rw [List.getElem?_drop, Nat.add_sub_cancel' hij, List.getElem?_eq_getElem hj]
  exact (between_of_mem hmem).1

private theorem elseIndex?_of_nil (h : (ofLines lines start).clauses = []) :
    (ofLines lines start).elseIndex? = none := by
  rw [elseIndex?, h, List.head?_nil, Option.map_none]

private theorem elseIndex?_of_cons {rest : List Clause}
    (h : (ofLines lines start).clauses = c :: rest) :
    (ofLines lines start).elseIndex? = some c.index := by
  rw [elseIndex?, h, List.head?_cons, Option.map_some]

private theorem followed_clauses (lines : List Line) (start : Nat) :
    Followed lines start ((ofLines lines start).clauses.map (·.index))
      (ofLines lines start).terminator := by
  obtain ⟨cs, hcs⟩ : ∃ cs, (ofLines lines start).clauses = cs := ⟨_, rfl⟩
  induction cs generalizing start with
  | nil =>
    rw [hcs]
    exact .last (elseIndex?_of_nil hcs)
  | cons c rest ih =>
    have hfirst := (ofLines_behind hcs).2
    have hrest := ih (c.index + 1) (by rw [hfirst])
    rw [hfirst] at hrest
    rw [hcs]
    exact .next (elseIndex?_of_cons hcs) hrest

/-- There is one way to go on from first clause to first clause. -/
private theorem Followed.unique {cs ds : List Nat} {stop stop' : Nat}
    (h : Followed lines start cs stop)
    (h' : Followed lines start ds stop') : cs = ds ∧ stop = stop' := by
  induction h generalizing ds stop' with
  | last hnone =>
    cases h' with
    | last => exact ⟨rfl, rfl⟩
    | next hsome _ => cases hnone.symm.trans hsome
  | next hsome _ ih =>
    cases h' with
    | last hnone => cases hnone.symm.trans hsome
    | next hsome' hrest =>
      obtain rfl := Option.some.inj (hsome.symm.trans hsome')
      obtain ⟨rfl, rfl⟩ := ih hrest
      exact ⟨rfl, rfl⟩

end OfLines

/-- **The clauses of a conditional hand over to each other.** For all lines and for every position
in them, whatever stands there: the branches that are found behind it end with its block, its
clauses are those at its own level, in the order of their lines, and each of them has exactly the
clauses behind it and the same closing line. -/
theorem ofLines_handsOver (lines : List Line) (start : Nat) :
    HandsOver lines start (ofLines lines start) where
  terminator_eq := terminator_ofLines lines start
  mem_iff _ := mem_clauses_ofLines_iff
  elseIndex?_eq := by
    rw [elseIndex?, List.getElem?_map, List.head?_eq_getElem?]
  increasing := increasing_clauses lines start
  between _ := between_of_mem
  behind _ _ := ofLines_of_getElem?
  followed_iff cs stop := by
    constructor
    · intro h
      exact h.unique (followed_clauses lines start)
    · rintro ⟨rfl, rfl⟩
      exact followed_clauses lines start

/-- A conditional with two clauses, and one with a clause of its own inside it. -/
def nestedChain : List Line :=
  ["Si x > 1 Entonces", "Si y > 1 Entonces", "Escribir 1", "SiNo", "Escribir 2", "FinSi",
    "SiNo Si x > 0 Entonces", "Escribir 3", "SiNo", "Escribir 4", "FinSi"].mapIdx
    fun i t => ⟨i + 1, t.toList⟩

/-- A conditional with another one in its first body: the inner clauses are not counted. -/
theorem ofLines_handsOver_nestedChain :
    (ofLines nestedChain 1).clauses = [⟨true, 6⟩, ⟨false, 8⟩] ∧
      ofLines nestedChain 7 = ⟨[⟨false, 8⟩], 10⟩ ∧ Followed nestedChain 1 [6, 8] 10 := by
  have hbranches : ofLines nestedChain 1 = ⟨[⟨true, 6⟩, ⟨false, 8⟩], 10⟩ := by decide
  have hover := ofLines_handsOver nestedChain 1
  rw [hbranches] at hover
  refine ⟨by rw [hbranches], hover.behind 0 ⟨true, 6⟩ rfl, ?_⟩
  exact (hover.followed_iff [6, 8] 10).mpr ⟨rfl, rfl⟩

end Pseudocode.Branches
