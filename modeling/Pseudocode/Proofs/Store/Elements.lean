import Pseudocode.Proofs.Binary64.Exact
import Pseudocode.Proofs.Store.History

/-!
# Elements of arrays

What is read from an array after an element was written. An index is a number of either kind, and
two indices may be different numbers and stand for the same position: `1` and `1.0`, or the two
zeros. What counts is the exact value of the index, so the laws are stated for `Number.fraction?`:

* **Which indices there are** (`position_eq_ok_iff`): finite numbers whose exact value is a natural
  number below the size of the array. Truth values are none, though they may be written.
* **Read over write** (`getElement_of_setElement`): an index with the same exact value reads what
  was written, as the double near to it, and any other index reads, or fails to read, as it did
  before.

A new array takes the place of the old one, in one variable. Other variables, those to which the old
array was assigned included, still have the old one.
-/

namespace Pseudocode.Store

open Binary64

variable {s t : Store} {name array : Text} {a : Variable} {xs : Array Float} {n : Number}
  {index v : Value} {m : Number}

/-! ### Indices and values -/

/-- To refuse an index is no answer. -/
private theorem refuse_ne_ok {k : Int} : (do
    let shown ← index.literal
    throw (.ofProblem (.invalidIndex shown array)) : Except Fault Int) ≠ .ok k := by
  intro h
  obtain ⟨shown, -, h⟩ := bind_eq_ok_iff.mp h
  cases h

/-- An index is a finite number that is an integer. -/
private theorem wholeIndex_eq_ok_iff {k : Int} :
    wholeIndex array index = .ok k ↔
      ∃ n, index = .number n ∧ n.isFinite = .ok true ∧ n.fraction? = some (k : ℚ) := by
  cases index with
  | number n =>
    constructor
    · intro h
      refine ⟨n, rfl, ?_⟩
      obtain ⟨x, hx, h⟩ := bind_eq_ok_iff.mp h
      split at h
      · next p hp =>
        obtain ⟨i, -, h⟩ := bind_eq_ok_iff.mp h
        split at h
        · next hequals =>
          obtain rfl := Except.ok.inj h
          refine ⟨?_, Number.equals_int_iff.mp hequals⟩
          rw [Number.isFinite, hx]
          exact congrArg Except.ok (isFinite_iff.mpr ⟨p, hp⟩)
        · exact absurd h refuse_ne_ok
      · exact absurd h refuse_ne_ok
    · rintro ⟨_, ⟨⟩, hfinite, hk⟩
      obtain ⟨x, hx, hfinite⟩ := bind_eq_ok_iff.mp hfinite
      obtain ⟨p, hp⟩ := isFinite_iff.mp (Except.ok.inj hfinite)
      rw [wholeIndex, hx]
      simp only [bind, Except.bind, hp, Number.truncate_eq_of_fraction? hk,
        if_pos (Number.equals_int_iff.mpr hk)]
      rfl
  | null | bool _ | text _ | array _ =>
    refine iff_of_false refuse_ne_ok ?_
    rintro ⟨n, hn, -⟩
    cases hn

/-- **An index stands for a position** exactly if it is a finite number whose exact value is a
natural number below the size. -/
theorem position_eq_ok_iff {size k : Nat} :
    position array size index = .ok k ↔
      ∃ n, index = .number n ∧ n.isFinite = .ok true ∧ n.fraction? = some (k : ℚ) ∧ k < size := by
  constructor
  · intro h
    obtain ⟨i, hi, h⟩ := bind_eq_ok_iff.mp h
    obtain ⟨n, hn, hfinite, hfraction⟩ := wholeIndex_eq_ok_iff.mp hi
    split at h
    · next hrange =>
      obtain rfl := Except.ok.inj h
      have hcast : ((i.toNat : Nat) : ℚ) = i := by exact_mod_cast Int.toNat_of_nonneg hrange.1
      exact ⟨n, hn, hfinite, by rw [hfraction, hcast], by omega⟩
    · cases h
  · rintro ⟨n, hn, hfinite, hfraction, hk⟩
    have hwhole : wholeIndex array index = .ok (k : Int) :=
      wholeIndex_eq_ok_iff.mpr ⟨n, hn, hfinite, by simpa using hfraction⟩
    rw [position, hwhole]
    simp only [bind, Except.bind]
    rw [if_pos (by omega)]
    rfl

/-- Indices with the same exact value stand for the same position. -/
private theorem position_congr {size k : Nat} {i j : Number} (hij : j.fraction? = i.fraction?)
    (h : position array size (.number i) = .ok k) : position array size (.number j) = .ok k := by
  obtain ⟨_, ⟨⟩, hfinite, hfraction, hk⟩ := position_eq_ok_iff.mp h
  refine position_eq_ok_iff.mpr ⟨j, rfl, ?_, hij.trans hfraction, hk⟩
  rwa [Number.isFinite_eq_ok_true_iff, hij, ← Number.isFinite_eq_ok_true_iff]

private theorem elementValue_eq_toReal (hv : v.toNumber? = some m) :
    elementValue array v = m.toReal := by
  rw [elementValue, hv]

/-- A text never becomes an element. -/
theorem ne_text_of_elementValue {x : Float} (h : elementValue array v = .ok x) (t : Text) :
    v ≠ .text t := by
  rintro rfl
  obtain ⟨shown, -, h⟩ := bind_eq_ok_iff.mp h
  cases h

/-! ### Reading and writing -/

/-- The variable of the array when another array has taken its place. -/
private theorem get?_define_array (ha : s.get? name = some a) (ys : Array Float) :
    (s.define { a with value := .array ys }).get? name = some { a with value := .array ys } := by
  rw [get?_define]
  exact if_pos (key_of_get? ha)

section Array

variable (ha : s.get? name = some a) (hxs : a.value = .array xs)

include ha hxs

/-- An element is read at its position. -/
private theorem getElement_eq (index : Value) :
    s.getElement name index =
      position a.name xs.size index >>= fun k => .ok (.real (xs.getD k 0)) := by
  rw [getElement, arrayOf_eq_ok_iff.mpr ⟨ha, hxs⟩]
  rfl

/-- An element is written at its position, and the array is put in anew. -/
private theorem apply_setElement_eq (index v : Value) :
    s.apply (.setElement name index v) =
      position a.name xs.size index >>= fun k => elementValue a.name v >>= fun x =>
        .ok (s.define { a with value := .array (xs.setIfInBounds k x) }) := by
  rw [apply, arrayOf_eq_ok_iff.mpr ⟨ha, hxs⟩]
  rfl

private theorem apply_setElement_eq_ok_iff (hv : v.toNumber? = some m) :
    s.apply (.setElement name index v) = .ok t ↔
      ∃ k x, position a.name xs.size index = .ok k ∧ m.toReal = .ok x ∧
        t = s.define { a with value := .array (xs.setIfInBounds k x) } := by
  rw [apply_setElement_eq ha hxs, elementValue_eq_toReal hv]
  constructor
  · intro h
    obtain ⟨k, hk, h⟩ := bind_eq_ok_iff.mp h
    obtain ⟨x, hx, h⟩ := bind_eq_ok_iff.mp h
    exact ⟨k, x, hk, hx, (Except.ok.inj h).symm⟩
  · rintro ⟨k, x, hk, hx, rfl⟩
    rw [hk, hx]
    rfl

end Array

/-- What is read where an element was written, by the position of the index. -/
private theorem getElement_define_setIfInBounds (ha : s.get? name = some a) {k l : Nat} {x : Float}
    (hk : k < xs.size) (hl : position a.name xs.size index = .ok l) :
    (s.define { a with value := .array (xs.setIfInBounds k x) }).getElement name index =
      .ok (.real (if l = k then x else xs.getD l 0)) := by
  rw [getElement_eq (get?_define_array ha _) rfl, Array.size_setIfInBounds, hl]
  refine congrArg (fun y => Except.ok (Value.real y)) ?_
  split
  · next heq => simp [heq, hk]
  · next hne => simp [Ne.symm hne]

/-- **What is written to an array is read from it.** An element of an array can be written exactly
if the index is finite and whole and in range, and the value has a double that is near to it. After
that, an index with the same exact value reads this double; any other number reads, or fails to
read, what it did before; the array has the size that it had, in a variable that is otherwise the
same; and every other name leads to the variable that it led to, so that a variable to which the
array was assigned keeps the array as it was. -/
theorem getElement_of_setElement {s : Store} {name : Text} {a : Variable} {xs : Array Float}
    (ha : s.get? name = some a) (hxs : a.value = .array xs) (i : Number) {v : Value} {m : Number}
    (hv : v.toNumber? = some m) :
    ((∃ t, s.apply (.setElement name (.number i) v) = .ok t) ↔
      i.isFinite = .ok true ∧ (∃ k : Nat, i.fraction? = some (k : ℚ) ∧ k < xs.size) ∧
        ∃ x, m.toReal = .ok x) ∧
    ∀ t, s.apply (.setElement name (.number i) v) = .ok t →
      (∀ j : Number, j.fraction? = i.fraction? →
        ∃ x, m.toReal = .ok x ∧ t.getElement name (.number j) = .ok (.real x)) ∧
      (∀ j : Number, j.fraction? ≠ i.fraction? →
        t.getElement name (.number j) = s.getElement name (.number j)) ∧
      (∃ ys, t.get? name = some { a with value := .array ys } ∧ ys.size = xs.size) ∧
      (∀ other : Text, other.lower ≠ name.lower → t.get? other = s.get? other) ∧
      t.keys = s.keys := by
  constructor
  · constructor
    · rintro ⟨t, ht⟩
      obtain ⟨k, x, hk, hx, -⟩ := (apply_setElement_eq_ok_iff ha hxs hv).mp ht
      obtain ⟨_, ⟨⟩, hfinite, hfraction, hlt⟩ := position_eq_ok_iff.mp hk
      exact ⟨hfinite, ⟨k, hfraction, hlt⟩, x, hx⟩
    · rintro ⟨hfinite, ⟨k, hfraction, hlt⟩, x, hx⟩
      have hk : position a.name xs.size (.number i) = .ok k :=
        position_eq_ok_iff.mpr ⟨i, rfl, hfinite, hfraction, hlt⟩
      exact ⟨_, (apply_setElement_eq_ok_iff ha hxs hv).mpr ⟨k, x, hk, hx, rfl⟩⟩
  · intro t ht
    obtain ⟨k, x, hk, hx, rfl⟩ := (apply_setElement_eq_ok_iff ha hxs hv).mp ht
    obtain ⟨_, ⟨⟩, -, hfraction, hlt⟩ := position_eq_ok_iff.mp hk
    have hkey : a.key = name.lower := key_of_get? ha
    refine ⟨fun j hj => ⟨x, hx, ?_⟩, fun j hj => ?_, ?_, fun other hother => ?_, ?_⟩
    · rw [getElement_define_setIfInBounds ha hlt (position_congr hj hk), if_pos rfl]
    · cases hl : position a.name xs.size (.number j) with
      | error fault =>
        rw [getElement_eq (get?_define_array ha _) rfl, getElement_eq ha hxs,
          Array.size_setIfInBounds, hl]
        rfl
      | ok l =>
        -- the same position would mean the same exact value
        have hne : l ≠ k := by
          rintro rfl
          obtain ⟨_, ⟨⟩, -, hfraction', -⟩ := position_eq_ok_iff.mp hl
          exact hj (hfraction'.trans hfraction.symm)
        rw [getElement_define_setIfInBounds ha hlt hl, if_neg hne, getElement_eq ha hxs, hl]
        rfl
    · exact ⟨_, get?_define_array ha _, Array.size_setIfInBounds⟩
    · rw [get?_define]
      exact if_neg fun h => hother (h.symm.trans hkey)
    · rw [keys_define]
      refine if_pos ?_
      exact List.mem_map.mpr ⟨a, List.mem_of_find?_eq_some ha, rfl⟩

/-- An array and another variable to which it was assigned. -/
def sharedArray : Store :=
  ⟨[⟨"a".toList, .array, .array #[0, 0]⟩, ⟨"x".toList, .integer, .array #[0, 0]⟩]⟩

/-- Two names share no array: an element of one of them is written, and the other is as it was. -/
theorem getElement_sharedArray :
    ∃ t, sharedArray.apply (.setElement "A".toList (.int 1) (.bool true)) = .ok t ∧
      t.getElement "A".toList (.real 1) = .ok (.real 1) ∧
      t.get? "x".toList = sharedArray.get? "x".toList := by
  have ha : sharedArray.get? "A".toList = some ⟨"a".toList, .array, .array #[0, 0]⟩ := rfl
  have hfinite : (Number.int 1).isFinite = .ok true := by decide
  have hone : (Number.int 1).toReal = .ok 1 := by decide
  have hform : form 1 = .finite ⟨false, leadingBit, -52⟩ := by decide
  have hsame : (Number.real 1).fraction? = (Number.int 1).fraction? := by
    rw [Number.fraction?_int, Number.fraction?_real_eq_some_iff]
    exact ⟨_, hform, by norm_num [Parts.value, leadingBit]⟩
  obtain ⟨hwrites, hreads⟩ := getElement_of_setElement ha rfl (.int 1) (v := .bool true) rfl
  obtain ⟨t, ht⟩ := hwrites.mpr ⟨hfinite, ⟨1, by simp [Number.fraction?], by decide⟩, 1, hone⟩
  obtain ⟨hread, -, -, hothers, -⟩ := hreads t ht
  obtain ⟨x, hx, hread⟩ := hread (.real 1) hsame
  obtain rfl := Except.ok.inj (hone.symm.trans hx)
  exact ⟨t, ht, hread, hothers _ (by decide)⟩

end Pseudocode.Store
