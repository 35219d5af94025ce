import Pseudocode.Block.Family
import Pseudocode.Numeral
import Pseudocode.Value.Basic

/-!
# The cases of a choice

A choice (`Segun`) has marks at its own level: case labels, which list values before a colon, and
`De Otro Modo` for all other values. The lines behind a mark up to the next one, or to the end of
the choice, are what it stands for.
-/

namespace Pseudocode

/-- What stands before the lines of a group: the values of a case, or the default. -/
inductive Mark where
  | values (vs : List Value)
  | otherwise
deriving Repr

/-- A case: its values, and the lines to run for them. -/
structure Case where
  values : List Value
  body : Span
deriving Repr

/-- The groups of a choice and the position of the line that closes it. -/
structure Cases where
  cases : List Case
  default : Option Span
  terminator : Nat
deriving Repr

namespace Cases

open Pattern

/-- The characters that may stand in a case label before its colon. -/
def isLabelChar (c : Char) : Bool :=
  Text.isWordChar c || Text.isBlank c || c == ',' || isQuote c || c == '.' || c == '+' || c == '-'

/-- The shape of a case label; it finds what stands before the colon. -/
def labelLine : Pattern Text := do
  let label ← run isLabelChar
  signs ":"; finish
  return label.text

/-- The shape of the line before the default group. -/
def otherwiseLine : Pattern Unit := do
  keyword "de"; blanks; keyword "otro"; blanks; keyword "modo"; edge

/-- A value of a case label: what stands between quotes is text, a numeral is a number (and
whatever follows it is passed over), and anything else is text as it stands. -/
def labelValue (t : Text) : Value :=
  let value := t.trim
  if decide (2 ≤ value.length) && value.head? == value.getLast? && value.head?.any isQuote then
    .text (value.drop 1).dropLast
  else match Numeral.signed? value with
    | some (x, _) => .number (.ofReal x)
    | none => .text value

/-- The values of a case label: what stands between its commas. -/
def labelValues (t : Text) : List Value := (t.splitAt ',').map labelValue

/-- What a line is as a mark, if it is one. -/
def markOf? (l : Line) : Option Mark :=
  if otherwiseLine.fits l.text then some .otherwise
  else (labelLine.find? l.text).map fun label => .values (labelValues label.trim)

/-- The marks of a choice in source order with their positions, and the position of the line that
closes it: `ls` are the lines from number `i` on, and `nested` inner choices are still open. -/
def scan (size nested i : Nat) : List Line → List (Mark × Nat) × Nat
  | [] => ([], size)
  | l :: ls =>
    if Family.segun.opens l then scan size (nested + 1) (i + 1) ls
    else if Family.segun.closes l then
      match nested with
      | 0 => ([], i)
      | outer + 1 => scan size outer (i + 1) ls
    else if nested = 0 then
      let (marks, stop) := scan size 0 (i + 1) ls
      (((markOf? l).map (·, i)).toList ++ marks, stop)
    else scan size nested (i + 1) ls

/-- The lines of each mark: from behind it to the next mark or to the end of the choice. -/
def bodies (stop : Nat) : List (Mark × Nat) → List (Mark × Span)
  | [] => []
  | [(m, i)] => [(m, ⟨i + 1, stop⟩)]
  | (m, i) :: (n, j) :: rest => (m, ⟨i + 1, j⟩) :: bodies stop ((n, j) :: rest)

/-- The groups with values, in source order. -/
def withValues (groups : List (Mark × Span)) : List Case :=
  groups.filterMap fun
    | (.values vs, body) => some ⟨vs, body⟩
    | (.otherwise, _) => none

/-- The last default group, if there is one. -/
def lastDefault (groups : List (Mark × Span)) : Option Span :=
  (groups.filterMap fun
    | (.otherwise, body) => some body
    | (.values _, _) => none).getLast?

/-- The cases of the choice whose lines start at `start`. -/
def ofLines (lines : List Line) (start : Nat) : Cases :=
  let (marks, stop) := scan lines.length 0 start (lines.drop start)
  let groups := bodies stop marks
  ⟨withValues groups, lastDefault groups, stop⟩

/-- A span of lines between `i` and `stop`. -/
def Inside (i stop : Nat) (s : Span) : Prop := i ≤ s.start ∧ s.start ≤ s.stop ∧ s.stop ≤ stop

/-- The marks that are found stand in order, in front of the end that is found with them. -/
theorem scan_within (size nested i : Nat) (ls : List Line) (h : i + ls.length = size) :
    i ≤ (scan size nested i ls).2 ∧ (scan size nested i ls).2 ≤ size ∧
      (∀ m ∈ (scan size nested i ls).1, i ≤ m.2 ∧ m.2 < (scan size nested i ls).2) ∧
      (scan size nested i ls).1.Pairwise (fun m n => m.2 < n.2) := by
  induction ls generalizing nested i with
  | nil => simp [scan] at h ⊢; omega
  | cons l ls ih =>
    have later := fun n => ih n (i + 1) (by simp at h; omega)
    have weaken : ∀ n, i ≤ (scan size n (i + 1) ls).2 ∧ (scan size n (i + 1) ls).2 ≤ size ∧
        (∀ m ∈ (scan size n (i + 1) ls).1, i ≤ m.2 ∧ m.2 < (scan size n (i + 1) ls).2) ∧
        (scan size n (i + 1) ls).1.Pairwise (fun m n => m.2 < n.2) := fun n =>
      ⟨Nat.le_of_succ_le (later n).1, (later n).2.1,
        fun m hm => ⟨Nat.le_of_succ_le ((later n).2.2.1 m hm).1, ((later n).2.2.1 m hm).2⟩,
        (later n).2.2.2⟩
    simp only [scan]
    split
    · exact weaken _
    · split
      · cases nested with
        | zero => simp at h ⊢; omega
        | succ outer => exact weaken _
      · split
        · have hl := later 0
          refine ⟨Nat.le_of_succ_le hl.1, hl.2.1, ?_, ?_⟩
          · intro m hm
            rcases List.mem_append.1 hm with hm | hm
            · obtain ⟨a, -, rfl⟩ := Option.map_eq_some_iff.1 (Option.mem_toList.1 hm)
              exact ⟨Nat.le_refl _, hl.1⟩
            · exact (weaken 0).2.2.1 m hm
          · refine List.pairwise_append.2 ⟨?_, hl.2.2.2, ?_⟩
            · cases markOf? l <;> simp
            · intro m hm n hn
              obtain ⟨a, -, rfl⟩ := Option.map_eq_some_iff.1 (Option.mem_toList.1 hm)
              exact (hl.2.2.1 n hn).1
        · exact weaken _

/-- The bodies lie between the first mark and the end. -/
theorem bodies_inside {i stop : Nat} {marks : List (Mark × Nat)}
    (h : ∀ m ∈ marks, i ≤ m.2 ∧ m.2 < stop) (hp : marks.Pairwise (fun m n => m.2 < n.2)) :
    ∀ g ∈ bodies stop marks, Inside (i + 1) stop g.2 := by
  induction marks with
  | nil => simp [bodies]
  | cons m rest ih =>
    obtain ⟨m, k⟩ := m
    have hk := h (m, k) (by simp)
    have later := ih (fun n hn => h n (List.mem_cons_of_mem _ hn)) (List.pairwise_cons.1 hp).2
    cases rest with
    | nil =>
      simp only [bodies, List.mem_singleton]
      rintro g rfl
      exact ⟨by simp; omega, by simp; omega, Nat.le_refl _⟩
    | cons n rest =>
      obtain ⟨n, j⟩ := n
      have hj := h (n, j) (by simp)
      have hkj := (List.pairwise_cons.1 hp).1 (n, j) (by simp)
      simp only [bodies, List.mem_cons]
      rintro g (rfl | hg)
      · exact ⟨by simp at hk ⊢; omega, by simp at hkj ⊢; omega, by simp at hj ⊢; omega⟩
      · exact later g hg

/-- The groups of a choice lie behind the line that opens it and before the one that closes it. -/
structure Within (c : Cases) (i size : Nat) : Prop where
  lower : i ≤ c.terminator
  upper : c.terminator ≤ size
  cases : ∀ k ∈ c.cases, Inside (i + 1) c.terminator k.body
  default : ∀ s ∈ c.default, Inside (i + 1) c.terminator s

/-- The groups of a choice lie between its header and the end of the lines. -/
theorem ofLines_within {lines : List Line} {start : Nat} (h : start ≤ lines.length) :
    (ofLines lines start).Within start lines.length := by
  have hs := scan_within lines.length 0 start (lines.drop start) (by simp; omega)
  have hb := bodies_inside hs.2.2.1 hs.2.2.2
  refine ⟨hs.1, hs.2.1, ?_, ?_⟩
  · intro k hk
    obtain ⟨⟨m, s⟩, hg, heq⟩ := List.mem_filterMap.1 hk
    cases m with
    | values vs => exact Option.some.inj heq ▸ hb _ hg
    | otherwise => exact absurd heq (by simp)
  · intro s hs'
    have hmem := List.mem_of_getLast? hs'
    obtain ⟨⟨m, t⟩, hg, heq⟩ := List.mem_filterMap.1 hmem
    cases m with
    | values vs => exact absurd heq (by simp)
    | otherwise => exact Option.some.inj heq ▸ hb _ hg

end Cases

end Pseudocode
