import Mathlib.Data.List.Pairwise
import Pseudocode.Proofs.Block.Bodies
import Pseudocode.Proofs.Block.Levels

/-!
# The groups of a choice

The marks of a choice, case labels and `De Otro Modo`, cut its lines into groups: a group reaches
from behind its mark to the next mark or to the end of the choice. The marks are found in one pass,
which counts the choices inside, and the groups are made in a second one, which looks one mark
ahead.

`Cases.Partitions` says what comes of it. The groups do not overlap, none of them holds a mark of
the choice itself, and **every line from the first mark on is a mark or belongs to exactly one
group**, unless there are two lines `De Otro Modo`: then only the last one counts, and the lines
behind the others belong to nothing.

The argument has two parts. `mem_marks_iff` says which lines are marks, and the section on bodies
is about any list of positions in increasing order, cut at these positions.
-/

namespace Pseudocode.Cases

/-- The line at the position is a mark of the choice whose lines start at `start`. -/
def MarkAt (lines : List Line) (start j : Nat) (m : Mark) : Prop :=
  ∃ l, Family.segun.Owns lines start j l ∧ markOf? l = some m

/-- The lines of the groups that can be run: those of the cases, and of the default. -/
def spans (c : Cases) : List Span := c.cases.map (·.body) ++ c.default.toList

/-- The groups are those of the choice whose lines start at `start`, and they part its lines. -/
structure Partitions (lines : List Line) (start : Nat) (c : Cases) : Prop where
  /-- The choice ends where its block does. -/
  terminator_eq : c.terminator = Family.segun.blockEnd lines start
  /-- Groups lie within the choice. -/
  inside : ∀ s ∈ c.spans, start < s.start ∧ s.start ≤ s.stop ∧ s.stop ≤ c.terminator
  /-- No two groups have a line in common. -/
  disjoint : c.spans.Pairwise fun s t => ∀ p, ¬ (s.Has p ∧ t.Has p)
  /-- The cases stand in the order of their lines, with a mark before each. -/
  ordered : c.cases.Pairwise fun a b => a.body.stop < b.body.start
  /-- Every case label has a case with its values, and every case has its label right before it. -/
  label_iff : ∀ j vs, MarkAt lines start j (.values vs) ↔
    ∃ k ∈ c.cases, k.values = vs ∧ k.body.start = j + 1
  /-- The default stands right behind a line `De Otro Modo`. -/
  default_mark : ∀ s ∈ c.default, ∃ j, MarkAt lines start j .otherwise ∧ s.start = j + 1
  /-- No group holds a mark. -/
  unmarked : ∀ s ∈ c.spans, ∀ j m, MarkAt lines start j m → ¬ s.Has j
  /-- With one default at most, a line from the first mark on that is no mark is in one group. -/
  covered : (∀ i j, MarkAt lines start i .otherwise → MarkAt lines start j .otherwise → i = j) →
    ∀ i m j, MarkAt lines start i m → i ≤ j → j < c.terminator →
      (∃ n, MarkAt lines start j n) ∨ ∃! s, s ∈ c.spans ∧ s.Has j

/-! ### Bodies between marks -/

/-- Where the lines before the given marks end. -/
def nextMark (stop : Nat) (marks : List (Mark × Nat)) : Nat := (marks.head?.map (·.2)).getD stop

private theorem bodies_cons (stop : Nat) (m : Mark) (i : Nat) (rest : List (Mark × Nat)) :
    bodies stop ((m, i) :: rest) = (m, ⟨i + 1, nextMark stop rest⟩) :: bodies stop rest := by
  cases rest with
  | nil => rfl
  | cons n rest => rfl

section Bodies

variable {stop p : Nat} {marks : List (Mark × Nat)} {m : Mark} {j : Nat} {g : Mark × Span}

/-- Every group stands right behind its mark. -/
private theorem exists_mark_of_mem (h : g ∈ bodies stop marks) : ∃ i, (g.1, i) ∈ marks ∧
    g.2.start = i + 1 := by
  induction marks with
  | nil => cases h
  | cons n rest ih =>
    obtain ⟨n, i⟩ := n
    rw [bodies_cons] at h
    rcases List.mem_cons.mp h with rfl | h
    · exact ⟨i, List.mem_cons_self, rfl⟩
    · obtain ⟨k, hk, hstart⟩ := ih h
      exact ⟨k, List.mem_cons_of_mem _ hk, hstart⟩

/-- Every mark has a group. -/
private theorem exists_mem_bodies (stop : Nat) (h : (m, j) ∈ marks) :
    ∃ e, (m, ⟨j + 1, e⟩) ∈ bodies stop marks := by
  induction marks with
  | nil => cases h
  | cons n rest ih =>
    obtain ⟨n, i⟩ := n
    rw [bodies_cons]
    rcases List.mem_cons.mp h with heq | h
    · obtain ⟨rfl, rfl⟩ := Prod.mk.inj heq
      exact ⟨_, List.mem_cons_self⟩
    · obtain ⟨e, he⟩ := ih h
      exact ⟨e, List.mem_cons_of_mem _ he⟩

/-- The lines before some marks in increasing order end at the first of them. -/
private theorem nextMark_le (h : marks.Pairwise fun a b => a.2 < b.2) (hj : (m, j) ∈ marks) :
    nextMark stop marks ≤ j := by
  cases marks with
  | nil => cases hj
  | cons n rest =>
    rcases List.mem_cons.mp hj with heq | hj
    · exact le_of_eq (congrArg Prod.snd heq).symm
    · exact (List.rel_of_pairwise_cons h hj).le

private theorem pairwise_bodies (h : marks.Pairwise fun a b => a.2 < b.2) :
    (bodies stop marks).Pairwise fun a b => a.2.stop < b.2.start := by
  induction marks with
  | nil => exact List.Pairwise.nil
  | cons n rest ih =>
    obtain ⟨n, i⟩ := n
    have hrest := List.Pairwise.of_cons h
    rw [bodies_cons]
    refine List.pairwise_cons.mpr ⟨fun g hg => ?_, ih hrest⟩
    obtain ⟨k, hk, hstart⟩ := exists_mark_of_mem hg
    have hle : nextMark stop rest ≤ k := nextMark_le hrest hk
    rw [hstart]
    exact Nat.lt_succ_of_le hle

/-- No group holds a mark: it starts behind its own one and ends at the next. -/
private theorem not_has_of_mem (h : marks.Pairwise fun a b => a.2 < b.2)
    (hg : g ∈ bodies stop marks) (hj : (m, j) ∈ marks) : ¬ g.2.Has j := by
  induction marks with
  | nil => cases hj
  | cons n rest ih =>
    obtain ⟨n, i⟩ := n
    have hrest := List.Pairwise.of_cons h
    rw [bodies_cons] at hg
    rintro ⟨hstart, hstop⟩
    rcases List.mem_cons.mp hg with rfl | hlater <;> rcases List.mem_cons.mp hj with heq | hj
    · obtain ⟨-, rfl⟩ := Prod.mk.inj heq
      exact absurd hstart (Nat.not_succ_le_self _)
    · exact absurd hstop (Nat.not_lt.mpr (nextMark_le hrest hj))
    · obtain ⟨-, rfl⟩ := Prod.mk.inj heq
      obtain ⟨k, hk, hk'⟩ := exists_mark_of_mem hlater
      have hlt : j < k := List.rel_of_pairwise_cons h hk
      omega
    · exact ih hrest hlater hj ⟨hstart, hstop⟩

/-- **From the first mark to the end, every line is a mark or in a group.** -/
theorem mark_or_body (h : marks.Pairwise fun a b => a.2 < b.2) (hj : (m, j) ∈ marks)
    (hjp : j ≤ p) (hp : p < stop) :
    (∃ n, (n, p) ∈ marks) ∨ ∃ g ∈ bodies stop marks, g.2.Has p := by
  induction marks generalizing m j with
  | nil => cases hj
  | cons n rest ih =>
    obtain ⟨n, i⟩ := n
    have hrest := List.Pairwise.of_cons h
    have hip : i ≤ p := by
      rcases List.mem_cons.mp hj with heq | hj
      · exact (congrArg Prod.snd heq).symm.le.trans hjp
      · exact (List.rel_of_pairwise_cons h hj).le.trans hjp
    rw [bodies_cons]
    rcases Nat.eq_or_lt_of_le hip with rfl | hip
    · exact .inl ⟨n, List.mem_cons_self⟩
    rcases Nat.lt_or_ge p (nextMark stop rest) with hnext | hnext
    · exact .inr ⟨_, List.mem_cons_self, hip, hnext⟩
    -- the line stands behind the next mark, so there is one
    obtain ⟨⟨n', k⟩, more, rfl⟩ : ∃ n' more, rest = n' :: more :=
      List.exists_cons_of_ne_nil fun hnil => by
        rw [hnil] at hnext
        exact absurd hp (Nat.not_lt.mpr hnext)
    rcases ih hrest List.mem_cons_self hnext with ⟨n'', hmark⟩ | ⟨g, hg, hhas⟩
    · exact .inl ⟨n'', List.mem_cons_of_mem _ hmark⟩
    · exact .inr ⟨g, List.mem_cons_of_mem _ hg, hhas⟩

end Bodies

/-! ### Groups with values and the default -/

section Groups

variable {groups : List (Mark × Span)} {k : Case} {s : Span}

private theorem mem_withValues_iff :
    k ∈ withValues groups ↔ (.values k.values, k.body) ∈ groups := by
  rw [withValues, List.mem_filterMap]
  constructor
  · rintro ⟨⟨m, body⟩, hg, heq⟩
    cases m with
    | values vs =>
      obtain rfl := Option.some.inj heq
      exact hg
    | otherwise => cases heq
  · intro hg
    exact ⟨_, hg, rfl⟩

private theorem pairwise_withValues (h : groups.Pairwise fun a b => a.2.stop < b.2.start) :
    (withValues groups).Pairwise fun a b => a.body.stop < b.body.start := by
  rw [withValues, List.pairwise_filterMap]
  refine h.imp ?_
  rintro ⟨m, s⟩ ⟨n, t⟩ hlt a ha b hb
  cases m with
  | values vs =>
    cases n with
    | values ws =>
      obtain rfl := Option.some.inj ha
      obtain rfl := Option.some.inj hb
      exact hlt
    | otherwise => cases hb
  | otherwise => cases ha

private theorem mem_of_lastDefault (h : s ∈ lastDefault groups) : (.otherwise, s) ∈ groups := by
  obtain ⟨⟨m, t⟩, hg, heq⟩ := List.mem_filterMap.mp (List.mem_of_getLast? h)
  cases m with
  | values vs => cases heq
  | otherwise =>
    obtain rfl := Option.some.inj heq
    exact hg

/-- The only default is the last one. -/
private theorem lastDefault_of_unique (hs : (.otherwise, s) ∈ groups)
    (hunique : ∀ t, (.otherwise, t) ∈ groups → t = s) : lastDefault groups = some s := by
  cases h : lastDefault groups with
  | none =>
    rw [lastDefault, List.getLast?_eq_none_iff, List.filterMap_eq_nil_iff] at h
    cases h _ hs
  | some t => rw [hunique t (mem_of_lastDefault h)]

end Groups

/-! ### The marks and groups of a choice -/

section OfLines

variable {lines : List Line} {start j : Nat} {m : Mark} {s : Span}

/-- The marks that are found, each with the position of its line. -/
def marksOf (lines : List Line) (start : Nat) : List (Mark × Nat) :=
  (scan lines.length 0 start (lines.drop start)).1

private theorem terminator_ofLines (lines : List Line) (start : Nat) :
    (ofLines lines start).terminator = Family.segun.blockEnd lines start := by
  have hend := gather_snd .segun noteMark lines.length 0 start (lines.drop start)
  rw [← cases_scan_eq_gather] at hend
  exact hend

/-- **The marks that are found are the marks at the level of the choice.** -/
theorem mem_marks_iff : (m, j) ∈ marksOf lines start ↔ MarkAt lines start j m := by
  rw [marksOf, cases_scan_eq_gather, mem_gather_iff]
  constructor
  · rintro ⟨i, l, howns, hnote⟩
    obtain ⟨n, hn, heq⟩ := Option.map_eq_some_iff.mp hnote
    obtain ⟨rfl, rfl⟩ := Prod.mk.inj heq
    exact ⟨l, howns, hn⟩
  · rintro ⟨l, howns, hm⟩
    exact ⟨j, l, howns, by rw [noteMark, hm, Option.map_some]⟩

private theorem pairwise_marksOf (lines : List Line) (start : Nat) :
    (marksOf lines start).Pairwise fun a b => a.2 < b.2 := by
  rcases Nat.lt_or_ge lines.length start with hlt | hle
  · rw [marksOf, List.drop_of_length_le hlt.le]
    exact List.Pairwise.nil
  · exact (scan_within lines.length 0 start _ (by rw [List.length_drop]; omega)).2.2.2

/-- The groups of all marks. -/
def groupsOf (lines : List Line) (start : Nat) : List (Mark × Span) :=
  bodies (ofLines lines start).terminator (marksOf lines start)

private theorem mem_cases_iff {k : Case} :
    k ∈ (ofLines lines start).cases ↔ (.values k.values, k.body) ∈ groupsOf lines start :=
  mem_withValues_iff

private theorem pairwise_groupsOf (lines : List Line) (start : Nat) :
    (groupsOf lines start).Pairwise fun a b => a.2.stop < b.2.start :=
  pairwise_bodies (pairwise_marksOf lines start)

/-- A group of a mark lies behind it and within the choice. -/
private theorem inside_of_mem_groupsOf {g : Mark × Span} (hg : g ∈ groupsOf lines start) :
    start < g.2.start ∧ g.2.start ≤ g.2.stop ∧ g.2.stop ≤ (ofLines lines start).terminator := by
  have hbounds : ∀ n ∈ marksOf lines start,
      start ≤ n.2 ∧ n.2 < (ofLines lines start).terminator := by
    rintro ⟨n, i⟩ hn
    obtain ⟨l, howns, -⟩ := mem_marks_iff.mp hn
    rw [terminator_ofLines]
    exact ⟨howns.atLevel.1, howns.atLevel.2.1⟩
  exact bodies_inside hbounds (pairwise_marksOf lines start) g hg

/-- One of two groups ends before the other one starts. -/
def Apart (g g' : Mark × Span) : Prop := g.2.stop < g'.2.start ∨ g'.2.stop < g.2.start

instance : Std.Symm Apart := ⟨fun _ _ => Or.symm⟩

private theorem apart_of_ne {g g' : Mark × Span} (hg : g ∈ groupsOf lines start)
    (hg' : g' ∈ groupsOf lines start) (hne : g ≠ g') : Apart g g' := by
  have hapart : (groupsOf lines start).Pairwise Apart :=
    (pairwise_groupsOf lines start).imp Or.inl
  exact hapart.forall hg hg' hne

/-- Groups are told apart by where they start. -/
private theorem eq_of_start_eq {g g' : Mark × Span} (hg : g ∈ groupsOf lines start)
    (hg' : g' ∈ groupsOf lines start) (h : g.2.start = g'.2.start) : g = g' := by
  by_contra hne
  have hstop := (inside_of_mem_groupsOf hg).2.1
  have hstop' := (inside_of_mem_groupsOf hg').2.1
  rcases apart_of_ne hg hg' hne with hlt | hlt <;> omega

/-- Every case label has a case with its values, and every case has its label right before it. -/
theorem markAt_values_iff {vs : List Value} : MarkAt lines start j (.values vs) ↔
    ∃ k ∈ (ofLines lines start).cases, k.values = vs ∧ k.body.start = j + 1 := by
  rw [← mem_marks_iff]
  constructor
  · intro hj
    obtain ⟨e, he⟩ := exists_mem_bodies (ofLines lines start).terminator hj
    exact ⟨⟨vs, ⟨j + 1, e⟩⟩, mem_cases_iff.mpr he, rfl, rfl⟩
  · rintro ⟨k, hk, rfl, hstart⟩
    obtain ⟨i, hi, hi'⟩ := exists_mark_of_mem (mem_cases_iff.mp hk)
    obtain rfl : i = j := Nat.succ.inj (hi'.symm.trans hstart)
    exact hi

/-- Cases are told apart by where their lines start. -/
theorem case_eq_of_start_eq {k k' : Case} (hk : k ∈ (ofLines lines start).cases)
    (hk' : k' ∈ (ofLines lines start).cases) (h : k.body.start = k'.body.start) : k = k' := by
  have heq := eq_of_start_eq (mem_cases_iff.mp hk) (mem_cases_iff.mp hk') h
  obtain ⟨hvalues, hbody⟩ := Prod.mk.inj heq
  obtain ⟨values, body⟩ := k
  obtain ⟨values', body'⟩ := k'
  exact congrArg₂ Case.mk (Mark.values.inj hvalues) hbody

/-- Two groups have no line in common. -/
private theorem eq_of_has {g g' : Mark × Span} {p : Nat} (hg : g ∈ groupsOf lines start)
    (hg' : g' ∈ groupsOf lines start) (h : g.2.Has p) (h' : g'.2.Has p) : g = g' := by
  by_contra hne
  obtain ⟨hstart, hstop⟩ := h
  obtain ⟨hstart', hstop'⟩ := h'
  rcases apart_of_ne hg hg' hne with hlt | hlt <;> omega

/-- What can be run is the group of a mark. -/
private theorem exists_group_of_mem_spans (h : s ∈ (ofLines lines start).spans) :
    ∃ m, (m, s) ∈ groupsOf lines start := by
  rcases List.mem_append.mp h with h | h
  · obtain ⟨k, hk, rfl⟩ := List.mem_map.mp h
    exact ⟨_, mem_cases_iff.mp hk⟩
  · exact ⟨.otherwise, mem_of_lastDefault (Option.mem_toList.mp h)⟩

private theorem disjoint_spans (lines : List Line) (start : Nat) :
    (ofLines lines start).spans.Pairwise fun s t => ∀ p, ¬ (s.Has p ∧ t.Has p) := by
  refine List.pairwise_append.mpr ⟨?_, ?_, ?_⟩
  · refine List.pairwise_map.mpr
      ((pairwise_withValues (pairwise_groupsOf lines start)).imp fun hlt p hp => ?_)
    obtain ⟨⟨-, hstop⟩, hstart, -⟩ := hp
    omega
  · cases (ofLines lines start).default with
    | none => exact List.Pairwise.nil
    | some s => exact List.pairwise_singleton _ _
  · -- a case and the default are groups of different marks
    rintro s hs t ht p ⟨hp, hp'⟩
    obtain ⟨k, hk, rfl⟩ := List.mem_map.mp hs
    have hdefault := mem_of_lastDefault (Option.mem_toList.mp ht)
    cases eq_of_has (mem_cases_iff.mp hk) hdefault hp hp'

/-- With one default at most, the group of every mark can be run. -/
private theorem mem_spans_of_mem_groupsOf {g : Mark × Span} (hg : g ∈ groupsOf lines start)
    (hone : ∀ i j, MarkAt lines start i .otherwise → MarkAt lines start j .otherwise → i = j) :
    g.2 ∈ (ofLines lines start).spans := by
  obtain ⟨m, s⟩ := g
  cases m with
  | values vs =>
    have hk : ⟨vs, s⟩ ∈ (ofLines lines start).cases := mem_cases_iff.mpr hg
    exact List.mem_append_left _ (List.mem_map.mpr ⟨_, hk, rfl⟩)
  | otherwise =>
    refine List.mem_append_right _ (Option.mem_toList.mpr (lastDefault_of_unique hg fun t ht => ?_))
    obtain ⟨i, hi, hs⟩ := exists_mark_of_mem hg
    obtain ⟨j, hj, ht'⟩ := exists_mark_of_mem ht
    have hij : i = j := hone i j (mem_marks_iff.mp hi) (mem_marks_iff.mp hj)
    have hstart : t.start = s.start := by
      rw [ht', hs, hij]
    exact congrArg Prod.snd (eq_of_start_eq ht hg hstart)

end OfLines

/-- **The groups of a choice part its lines.** -/
theorem ofLines_partitions (lines : List Line) (start : Nat) :
    Partitions lines start (ofLines lines start) where
  terminator_eq := terminator_ofLines lines start
  inside s hs := by
    obtain ⟨m, hg⟩ := exists_group_of_mem_spans hs
    exact inside_of_mem_groupsOf hg
  disjoint := disjoint_spans lines start
  ordered := pairwise_withValues (pairwise_groupsOf lines start)
  label_iff _ _ := markAt_values_iff
  default_mark s hs := by
    obtain ⟨i, hi, hstart⟩ := exists_mark_of_mem (mem_of_lastDefault hs)
    exact ⟨i, mem_marks_iff.mp hi, hstart⟩
  unmarked s hs j m hm := by
    obtain ⟨n, hg⟩ := exists_group_of_mem_spans hs
    exact not_has_of_mem (pairwise_marksOf lines start) hg (mem_marks_iff.mpr hm)
  covered hone i m j hm hij hj := by
    rcases mark_or_body (pairwise_marksOf lines start) (mem_marks_iff.mpr hm) hij hj with
      ⟨n, hn⟩ | ⟨g, hg, hhas⟩
    · exact .inl ⟨n, mem_marks_iff.mp hn⟩
    · refine .inr ⟨g.2, ⟨mem_spans_of_mem_groupsOf hg hone, hhas⟩, ?_⟩
      rintro s ⟨hs, hhas'⟩
      obtain ⟨n, hg'⟩ := exists_group_of_mem_spans hs
      exact congrArg Prod.snd (eq_of_has hg' hg hhas' hhas)

/-- A choice with its default between two cases, and with a choice inside the default. -/
def nestedChoice : List Line :=
  ["Segun x Hacer", "\"a\", b:", "Escribir 1", "De Otro Modo:", "Segun y Hacer", "c:", "Escribir 2",
    "FinSegun", "d:", "FinSegun"].mapIdx fun i t => ⟨i + 1, t.toList⟩

private theorem marksOf_nestedChoice : marksOf nestedChoice 1 =
    [(.values [.text ['a'], .text ['b']], 1), (.otherwise, 3), (.values [.text ['d']], 8)] := by
  rfl

/-- A choice inside a group of another one lies in that group alone. -/
theorem ofLines_partitions_nestedChoice :
    (∃ k ∈ (ofLines nestedChoice 1).cases, k.values = [.text ['d']] ∧ k.body.start = 9) ∧
      ∃! s, s ∈ (ofLines nestedChoice 1).spans ∧ s.Has 5 := by
  have hparts := ofLines_partitions nestedChoice 1
  have hmark (j : Nat) (m : Mark) : MarkAt nestedChoice 1 j m ↔
      (m, j) ∈ [(.values [.text ['a'], .text ['b']], 1), (.otherwise, 3),
        (.values [.text ['d']], 8)] := by
    rw [← mem_marks_iff, marksOf_nestedChoice]
  refine ⟨(hparts.label_iff 8 _).mp ((hmark 8 _).mpr (by simp)), ?_⟩
  have hone (i j : Nat) (hi : MarkAt nestedChoice 1 i .otherwise)
      (hj : MarkAt nestedChoice 1 j .otherwise) : i = j := by
    rw [hmark] at hi hj
    simp_all
  have hend : 5 < (ofLines nestedChoice 1).terminator := by decide
  -- the label inside the inner choice is no mark of the outer one
  have hfirst : MarkAt nestedChoice 1 3 .otherwise := (hmark 3 _).mpr (by simp)
  refine (hparts.covered hone 3 .otherwise 5 hfirst (by decide) hend).resolve_left ?_
  rintro ⟨n, hn⟩
  rw [hmark] at hn
  simp at hn

end Pseudocode.Cases
