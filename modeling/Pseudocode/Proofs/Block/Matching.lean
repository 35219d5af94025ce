import Mathlib.Algebra.Order.Ring.Int
import Pseudocode.Proofs.Block.Openers

/-!
# The ends of blocks as matching brackets

The lines that open and close the blocks of one family are brackets, and the end of a block is the
closing bracket that belongs to the line in front of its body. `Family.Matches` says so by counting
alone: behind line `i` and up to line `k` there is exactly one closing line more than there are
opening lines. The end of a block is the least such `k` (`blockEnd_matches_brackets`).

The search counts the inner blocks that are open, and starts anew for every block. What relates
searches that start at different lines is a fact about all the places that a search has passed: up
to there, **closing lines never outnumber opening lines** (`closing_ends`). A search that passes an
opening line is therefore one closing line behind, and has to pass the one that belongs to it before
it comes to its own. So two blocks of a family lie apart, or one lies inside the other, however
unbalanced the lines are.
-/

namespace Pseudocode.Family

variable {f : Family} {lines ls : List Line} {l : Line} {i j k : Nat}

/-- The lines behind line `i`, up to line `k` and with it. -/
def linesBehind (lines : List Line) (i k : Nat) : List Line := (lines.drop (i + 1)).take (k - i)

/-- The line `k` is there, and behind line `i` and up to line `k` exactly one more line closes a
block of the family than lines open one. -/
def Matches (f : Family) (lines : List Line) (i k : Nat) : Prop :=
  i < k ∧ k < lines.length ∧
    (linesBehind lines i k).countP f.closes = (linesBehind lines i k).countP f.opens + 1

instance (lines : List Line) (i k : Nat) : Decidable (f.Matches lines i k) :=
  inferInstanceAs (Decidable (_ ∧ _))

/-! ### Closing lines beyond opening lines -/

/-- How many more lines close a block of the family than lines open one. -/
def surplus (f : Family) (ls : List Line) : Int := ls.countP f.closes - ls.countP f.opens

/-- Without lines there is no surplus. -/
theorem surplus_nil : f.surplus [] = 0 := rfl

private theorem surplus_append (ls ms : List Line) :
    f.surplus (ls ++ ms) = f.surplus ls + f.surplus ms := by
  simp only [surplus, List.countP_append]
  omega

/-- The surplus of the first line adds to that of the rest. -/
theorem surplus_cons (l : Line) (ls : List Line) :
    f.surplus (l :: ls) = f.surplus [l] + f.surplus ls :=
  surplus_append [l] ls

/-- No line is both brackets of a family: one of them starts with `Fin`. -/
private theorem closes_eq_false_of_opens (h : f.opens l = true) : f.closes l = false := by
  refine (Bool.not_eq_true _).mp fun hcloses => ?_
  obtain ⟨x, hx⟩ := Pattern.fits_iff.mp hcloses
  have hfin : ∃ y, y ∈ Pattern.keyword "fin" (.start l.text) := by
    cases f with
    | mientras | para | si | segun =>
      obtain ⟨y, hy, -⟩ := Pattern.mem_bind.mp hx
      exact ⟨y, hy⟩
  obtain ⟨y, hy⟩ := hfin
  exact (heads_of_opens h).not_mem_keyword f.word_mem (by decide) y hy

/-- A line that opens a block lowers the surplus. -/
theorem surplus_of_opens (h : f.opens l = true) : f.surplus [l] = -1 := by
  simp [surplus, h, closes_eq_false_of_opens h]

/-- A line that closes a block raises the surplus. -/
theorem surplus_of_closes (ho : f.opens l = false) (hc : f.closes l = true) :
    f.surplus [l] = 1 := by
  simp [surplus, ho, hc]

/-- Any other line leaves the surplus as it is. -/
theorem surplus_of_neither (ho : f.opens l = false) (hc : f.closes l = false) :
    f.surplus [l] = 0 := by
  simp [surplus, ho, hc]

private theorem matches_iff :
    f.Matches lines i k ↔ i < k ∧ k < lines.length ∧ f.surplus (linesBehind lines i k) = 1 := by
  rw [Matches, surplus]
  refine and_congr_right fun _ => and_congr_right fun _ => ?_
  omega

/-! ### One search -/

/-- Where a search among the lines `ls` ends, the first of which has number `i`, if `nested` inner
blocks are open: at the line that brings one closing line too many, or nowhere. Before that, there
is never one too many. -/
inductive SearchEnds (f : Family) (size nested i : Nat) (ls : List Line) : Nat → Prop where
  | found {k : Nat} : k < ls.length → f.surplus (ls.take (k + 1)) = nested + 1 →
      (∀ j ≤ k, f.surplus (ls.take j) ≤ nested) → SearchEnds f size nested i ls (i + k)
  | never : (∀ j, f.surplus (ls.take j) ≤ nested) → SearchEnds f size nested i ls size

/-- A search that goes on behind a line with the number of inner blocks that the line leaves. -/
private theorem SearchEnds.cons {size inner nested e : Nat}
    (h : SearchEnds f size inner (i + 1) ls e)
    (hl : f.surplus [l] + inner = nested) : SearchEnds f size nested i (l :: ls) e := by
  have hsurplus (j : Nat) :
      f.surplus ((l :: ls).take (j + 1)) = f.surplus [l] + f.surplus (ls.take j) := by
    rw [List.take_succ_cons, surplus_cons]
  have hle {j : Nat} (hj : f.surplus (ls.take j) ≤ inner) :
      f.surplus ((l :: ls).take (j + 1)) ≤ nested := by
    rw [hsurplus]
    omega
  have hstart : f.surplus ((l :: ls).take 0) ≤ nested := by
    rw [List.take_zero, surplus_nil]
    omega
  cases h with
  | @found k hk heq hbefore =>
    rw [Nat.add_right_comm, Nat.add_assoc]
    refine .found (Nat.succ_lt_succ hk) ?_ fun j hj => ?_
    · rw [hsurplus, heq]
      omega
    · cases j with
      | zero => exact hstart
      | succ j => exact hle (hbefore j (by omega))
  | never hbefore =>
    refine .never fun j => ?_
    cases j with
    | zero => exact hstart
    | succ j => exact hle (hbefore j)

/-- **The search ends at the first closing line too many.** -/
theorem closing_ends (f : Family) (size nested i : Nat) (ls : List Line) :
    SearchEnds f size nested i ls (f.closing size nested i ls) := by
  induction ls generalizing nested i with
  | nil => exact .never fun j => by rw [List.take_nil, surplus_nil]; omega
  | cons l ls ih =>
    simp only [closing]
    split
    · next ho => exact (ih (nested + 1) (i + 1)).cons (by rw [surplus_of_opens ho]; omega)
    · next ho =>
      rw [Bool.not_eq_true] at ho
      split
      · next hc =>
        have hone := surplus_of_closes ho hc
        cases nested with
        | zero =>
          refine .found (k := 0) (Nat.zero_lt_succ _) (by simpa using hone) fun j hj => ?_
          rw [Nat.le_zero.mp hj, List.take_zero, surplus_nil]
          rfl
        | succ outer => exact (ih outer (i + 1)).cons (by rw [hone]; omega)
      · next hc =>
        rw [Bool.not_eq_true] at hc
        exact (ih nested (i + 1)).cons (by rw [surplus_of_neither ho hc]; omega)

/-! ### Searches that start at different lines -/

/-- What is counted behind one line and behind a later one. -/
private theorem surplus_linesBehind_add (hij : i ≤ j) (hjk : j ≤ k) :
    f.surplus (linesBehind lines i k) =
      f.surplus (linesBehind lines i j) + f.surplus (linesBehind lines j k) := by
  have hlength : k - i = (j - i) + (k - j) := by omega
  have hdrop : (lines.drop (i + 1)).drop (j - i) = lines.drop (j + 1) := by
    rw [List.drop_drop]
    congr 1
    omega
  simp only [linesBehind]
  rw [hlength, List.take_add, hdrop, surplus_append]

/-- An opening line takes one from what was counted before it. -/
private theorem surplus_linesBehind_of_opens (hij : i < j) (hl : lines[j]? = some l)
    (ho : f.opens l = true) :
    f.surplus (linesBehind lines i j) = f.surplus (linesBehind lines i (j - 1)) - 1 := by
  have hlast : linesBehind lines (j - 1) j = [l] := by
    obtain ⟨hlt, hget⟩ := List.getElem?_eq_some_iff.mp hl
    have hj : j - 1 + 1 = j := by omega
    have hone : j - (j - 1) = 1 := by omega
    rw [linesBehind, hj, hone, List.drop_eq_getElem_cons hlt, hget]
    rfl
  rw [surplus_linesBehind_add (j := j - 1) (by omega) (by omega), hlast, surplus_of_opens ho]
  omega

/-- The end of the block behind line `i`: either it is the line that brings the first closing line
too many, or there is none. -/
private theorem blockEnd_cases (f : Family) (lines : List Line) (i : Nat) :
    (f.Matches lines i (f.blockEnd lines (i + 1)) ∧
        ∀ j < f.blockEnd lines (i + 1), f.surplus (linesBehind lines i j) ≤ 0) ∨
      (f.blockEnd lines (i + 1) = lines.length ∧
        ∀ j, f.surplus (linesBehind lines i j) ≤ 0) := by
  have hends := closing_ends f lines.length 0 (i + 1) (lines.drop (i + 1))
  rw [← blockEnd] at hends
  generalize f.blockEnd lines (i + 1) = e at hends
  cases hends with
  | @found k hk heq hbefore =>
    rw [List.length_drop] at hk
    refine .inl ⟨matches_iff.mpr ⟨by omega, by omega, ?_⟩, fun j hj => hbefore _ (by omega)⟩
    have hlength : i + 1 + k - i = k + 1 := by omega
    rw [linesBehind, hlength, heq]
    rfl
  | never hbefore => exact .inr ⟨rfl, fun j => hbefore _⟩

/-- A block has come to its end where closing lines outnumber opening lines. -/
private theorem blockEnd_le_of_surplus_pos (h : 0 < f.surplus (linesBehind lines i k)) :
    f.blockEnd lines (i + 1) ≤ k := by
  rcases blockEnd_cases f lines i with ⟨-, hbefore⟩ | ⟨-, hnever⟩
  · by_contra hlt
    have := hbefore k (by omega)
    omega
  · have := hnever k
    omega

private theorem blockEnd_le_of_matches (h : f.Matches lines i k) :
    f.blockEnd lines (i + 1) ≤ k := by
  refine blockEnd_le_of_surplus_pos ?_
  rw [(matches_iff.mp h).2.2]
  exact one_pos

/-- The end of a block is the least line that matches the line in front of its body. -/
private theorem isLeast_blockEnd_iff :
    IsLeast {k | f.Matches lines i k} k ↔ f.blockEnd lines (i + 1) = k ∧ k < lines.length := by
  constructor
  · rintro ⟨hk, hleast⟩
    refine ⟨?_, hk.2.1⟩
    rcases blockEnd_cases f lines i with ⟨hmatch, -⟩ | ⟨-, hnever⟩
    · exact Nat.le_antisymm (blockEnd_le_of_matches hk) (hleast hmatch)
    · have := hnever k
      have := (matches_iff.mp hk).2.2
      omega
  · rintro ⟨rfl, hlt⟩
    rcases blockEnd_cases f lines i with ⟨hmatch, -⟩ | ⟨hend, -⟩
    · exact ⟨hmatch, fun m hm => blockEnd_le_of_matches hm⟩
    · omega

/-- There is no line that matches exactly if the block goes on to the end of the lines. -/
private theorem blockEnd_eq_length_iff :
    f.blockEnd lines (i + 1) = lines.length ↔ ∀ k, ¬ f.Matches lines i k := by
  constructor
  · intro hend k hk
    have hle : f.blockEnd lines (i + 1) ≤ k := blockEnd_le_of_matches hk
    have hlt : k < lines.length := hk.2.1
    omega
  · intro hnone
    rcases blockEnd_cases f lines i with ⟨hmatch, -⟩ | ⟨hend, -⟩
    · exact absurd hmatch (hnone _)
    · exact hend

/-- **Blocks of one family do not cross.** A line that opens a block inside another one has an end
before that of the other, unless neither has an end. -/
theorem blockEnd_lt_blockEnd (hij : i < j) (hl : lines[j]? = some l) (ho : f.opens l = true)
    (hin : j ≤ f.blockEnd lines (i + 1)) :
    f.blockEnd lines (j + 1) < f.blockEnd lines (i + 1) ∨
      (f.blockEnd lines (i + 1) = lines.length ∧ f.blockEnd lines (j + 1) = lines.length) := by
  rcases blockEnd_cases f lines i with ⟨hmatch, hbefore⟩ | ⟨hend, -⟩
  · obtain ⟨-, hlt, hone⟩ := matches_iff.mp hmatch
    -- the opening line leaves the search one closing line behind, and it has to catch up
    have hbehind : f.surplus (linesBehind lines i j) < 0 := by
      have := hbefore (j - 1) (by omega)
      rw [surplus_linesBehind_of_opens hij hl ho]
      omega
    have htwo : 2 ≤ f.surplus (linesBehind lines j (f.blockEnd lines (i + 1))) := by
      have := @surplus_linesBehind_add f lines i j _ hij.le hin
      omega
    have hle : f.blockEnd lines (j + 1) ≤ f.blockEnd lines (i + 1) :=
      blockEnd_le_of_surplus_pos (by omega)
    refine .inl (lt_of_le_of_ne hle fun heq => ?_)
    rcases blockEnd_cases f lines j with ⟨hinner, -⟩ | ⟨hinner, -⟩
    · have := (matches_iff.mp hinner).2.2
      rw [heq] at this
      omega
    · omega
  · have hj : j < lines.length := (List.getElem?_eq_some_iff.mp hl).1
    have hle : f.blockEnd lines (j + 1) ≤ lines.length := (f.blockEnd_bounds hj).2
    omega

/-- **Ends of blocks are matching brackets.** The end of the block behind a line is the least line
up to which there is exactly one closing line more than there are opening lines, and the end of all
lines if there is none. A line that opens a block behind line `i` lies behind the end of the block
of `i`, or its own block ends before that, or neither has an end; in particular, two blocks never
have the same closing line. -/
theorem blockEnd_matches_brackets (f : Family) (lines : List Line) :
    (∀ i k, f.blockEnd lines (i + 1) = k ∧ k < lines.length ↔
      IsLeast {k | f.Matches lines i k} k) ∧
    (∀ i, f.blockEnd lines (i + 1) = lines.length ↔ ∀ k, ¬ f.Matches lines i k) ∧
    ∀ i j, i < j → lines[j]?.any f.opens = true →
      (f.blockEnd lines (i + 1) < j ∨
        f.blockEnd lines (j + 1) < f.blockEnd lines (i + 1) ∨
        (f.blockEnd lines (i + 1) = lines.length ∧ f.blockEnd lines (j + 1) = lines.length)) ∧
      (f.blockEnd lines (i + 1) = f.blockEnd lines (j + 1) →
        f.blockEnd lines (i + 1) = lines.length) := by
  refine ⟨fun i k => isLeast_blockEnd_iff.symm, fun i => blockEnd_eq_length_iff, ?_⟩
  intro i j hij hopens
  obtain ⟨l, hl, ho⟩ := (Option.any_eq_true _ _).mp hopens
  rcases lt_or_ge (f.blockEnd lines (i + 1)) j with hbefore | hin
  · have hj : j < lines.length := (List.getElem?_eq_some_iff.mp hl).1
    have hstart : j + 1 ≤ f.blockEnd lines (j + 1) := (f.blockEnd_bounds hj).1
    exact ⟨.inl hbefore, fun heq => by omega⟩
  · rcases blockEnd_lt_blockEnd hij hl ho hin with hlt | hend
    · exact ⟨.inr (.inl hlt), fun heq => by omega⟩
    · exact ⟨.inr (.inr hend), fun _ => hend.1⟩

/-- A loop inside a loop, with a closing line to spare. -/
def nestedLoops : List Line :=
  ["Mientras a < 2 Hacer", "Mientras b < 2 Hacer", "b <- b + 1", "FinMientras", "Fin Mientras",
    "FinMientras"].mapIdx fun i t => ⟨i + 1, t.toList⟩

/-- A loop inside a loop ends before the outer one. -/
theorem blockEnd_nestedLoops :
    nestedLoops[1]?.any mientras.opens = true ∧
      IsLeast {k | mientras.Matches nestedLoops 0 k} 4 ∧
      mientras.blockEnd nestedLoops 2 < mientras.blockEnd nestedLoops 1 := by
  have hopens : nestedLoops[1]?.any mientras.opens = true := by decide
  have hend : mientras.blockEnd nestedLoops 1 = 4 := by decide
  obtain ⟨hleast, -, hnested⟩ := blockEnd_matches_brackets .mientras nestedLoops
  refine ⟨hopens, (hleast 0 4).mp ⟨hend, by decide⟩, ?_⟩
  have hinner : ¬ mientras.blockEnd nestedLoops 1 < 1 := by omega
  have hclosed : ¬ mientras.blockEnd nestedLoops 1 = nestedLoops.length := by
    rw [hend]
    decide
  exact ((hnested 0 1 one_pos hopens).1.resolve_left hinner).resolve_right fun h => hclosed h.1

end Pseudocode.Family
