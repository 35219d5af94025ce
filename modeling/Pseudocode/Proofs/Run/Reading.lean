import Pseudocode.Proofs.Numeral.Leading
import Pseudocode.Proofs.Run.Assignment
import Pseudocode.Proofs.Run.Inputs

/-!
# What is read into variables

`Leer` gives each of its variables what the answer to a question stands for: an integer, a finite
number, a truth value or the answer itself, as the type of the variable has it (`Exec.Suits`).
`Exec.Coerced` says which value it is, by the longest numeral at the start of the answer.

**An answer is refused only if a number that is found in it cannot be converted**
(`Exec.input_suits_types`): it is for a variable of numbers, and one of the separators `0x1C` to
`0x1F` stands before the numeral. Then the statement ends in a fault, the variables before this one
keep what they got, and the others keep what they had. Without such an answer, the statement ends
well.
-/

namespace Pseudocode

open Binary64 Numeral
open Text (isBlank isNumeralBlank)

namespace Exec

/-! ### Values for answers -/

/-- The value that an answer gives to a variable of a type. -/
inductive Coerced : VarType → Text → Value → Prop where
  /-- Without a numeral at the start of the answer, a number is zero. -/
  | absent {type : VarType} {t : Text} : type ∈ [.integer, .real] →
      (∀ p x, p <+: t → ¬ Spaced isBlank p x) → Coerced type t (.int 0)
  /-- So it is if the numeral is beyond the range of doubles. -/
  | unbounded {type : VarType} {t p : Text} {x : Float} : type ∈ [.integer, .real] →
      Foremost t p x → (∀ parts, form x ≠ .finite parts) → Coerced type t (.int 0)
  /-- An integer is cut off the number. -/
  | integer {t p : Text} {x : Float} {parts : Parts} : Foremost t p x → form x = .finite parts →
      Coerced .integer t (.int parts.truncate)
  | real {t p : Text} {x : Float} {parts : Parts} : Foremost t p x → form x = .finite parts →
      Coerced .real t (.real x)
  | logical (t : Text) : Coerced .logical t (.bool (t.trim.lower == "verdadero".toList))
  /-- Every other variable gets the answer as it is. -/
  | raw {type : VarType} (t : Text) : type ∉ [.integer, .real, .logical] →
      Coerced type t (.text t)

/-- A value is as the type of a variable has it: an integer, a finite number, a truth value, or the
answer. -/
def Suits (answer : Text) : VarType → Value → Prop
  | .integer, value => ∃ n, value = .int n
  | .real, value => ∃ (n : Number) (q : ℚ), value = .number n ∧ n.fraction? = some q
  | .logical, value => ∃ b, value = .bool b
  | _, value => value = .text answer

/-- The numeral that is found at the start of an answer for a number cannot be converted. -/
structure Refused (type : VarType) (t p : Text) : Prop where
  numeric : type ∈ [.integer, .real]
  found : ∃ x, Foremost t p x
  inconvertible : ∀ y, ¬ Spaced isNumeralBlank p y

variable {type : VarType} {t p answer : Text} {value : Value}

private theorem eq_integer_or_real (h : type ∈ [.integer, .real]) :
    type = .integer ∨ type = .real := by
  simpa using h

/-- A value that an answer gives suits the type of the variable. -/
private theorem Coerced.suits (h : Coerced type t value) : Suits t type value := by
  cases h with
  | absent htype _ | unbounded htype _ _ =>
    rcases eq_integer_or_real htype with rfl | rfl
    · exact ⟨0, rfl⟩
    · exact ⟨.int 0, 0, rfl, Number.fraction?_int 0⟩
  | integer _ _ => exact ⟨_, rfl⟩
  | real _ hform => exact ⟨_, _, rfl, Number.fraction?_real_eq_some_iff.mpr ⟨_, hform, rfl⟩⟩
  | logical => exact ⟨_, rfl⟩
  | raw t htype =>
    cases type with
    | integer | real | logical => simp at htype
    | character | string | array | other => rfl

/-- An answer without a numeral gives zero to a number. -/
private theorem Coerced.eq_zero (h : Coerced type t value) (htype : type ∈ [.integer, .real])
    (hnone : ∀ p x, p <+: t → ¬ Spaced isBlank p x) : value = .int 0 := by
  cases h with
  | absent _ _ | unbounded _ _ _ => rfl
  | integer hforemost _ | real hforemost _ =>
    exact absurd hforemost.numeral (hnone _ _ hforemost.front)
  | logical => simp at htype
  | raw _ hother =>
    have hmem : type ∈ [VarType.integer, .real] ++ [.logical] := List.mem_append_left _ htype
    exact absurd hmem hother

section Numeric

variable (htype : type ∈ [.integer, .real])

include htype

private theorem coerce_of_leading_error {fault : Fault} (h : leading t = .error fault) :
    coerce type t = .error fault := by
  rcases eq_integer_or_real htype with rfl | rfl <;> simp [coerce, h, bind, Except.bind]

private theorem coerce_of_leading_none (h : leading t = .ok none) :
    coerce type t = .ok (.int 0) := by
  rcases eq_integer_or_real htype with rfl | rfl <;>
    simp [coerce, h, bind, Except.bind, pure, Except.pure]

/-- A number that was found has a value for a variable of numbers. -/
private theorem exists_coerce_of_leading_some {x : Float} (hforemost : Foremost t p x)
    (h : leading t = .ok (some x)) : ∃ value, coerce type t = .ok value ∧ Coerced type t value := by
  by_cases hfinite : ∃ parts, form x = .finite parts
  · obtain ⟨parts, hparts⟩ := hfinite
    rcases eq_integer_or_real htype with rfl | rfl
    · refine ⟨.int parts.truncate, ?_, .integer hforemost hparts⟩
      simp [coerce, h, hparts, bind, Except.bind, pure, Except.pure]
    · refine ⟨.real x, ?_, .real hforemost hparts⟩
      simp [coerce, h, hparts, bind, Except.bind, pure, Except.pure]
  · have hform : ∀ parts, form x ≠ .finite parts := fun parts hp => hfinite ⟨parts, hp⟩
    refine ⟨.int 0, ?_, .unbounded htype hforemost hform⟩
    cases hx : form x with
    | finite parts => exact absurd hx (hform parts)
    | nan | infinite =>
      rcases eq_integer_or_real htype with rfl | rfl <;>
        simp [coerce, h, hx, bind, Except.bind, pure, Except.pure]

end Numeric

/-- A number is refused only behind a separator. -/
private theorem Refused.separated (h : Refused type t p) : Separated t := by
  obtain ⟨x, hforemost⟩ := h.found
  by_contra hnot
  exact h.inconvertible x (hforemost.convertible hnot)

/-- **An answer either has a value for a variable or is refused.** -/
theorem coerce_cases (type : VarType) (t : Text) :
    (∃ value, coerce type t = .ok value ∧ Coerced type t value ∧ ∀ p, ¬ Refused type t p) ∨
    ∃ p, coerce type t = .error (.invalidReal p) ∧ Refused type t p := by
  by_cases htype : type ∈ [.integer, .real]
  · rcases leading_cases t with ⟨hread, hnone⟩ | ⟨p, x, hforemost, hplain, -, hread⟩ |
      ⟨p, x, hforemost, -, hconvert, hread⟩
    · refine .inl ⟨.int 0, coerce_of_leading_none htype hread, .absent htype hnone, ?_⟩
      rintro p ⟨-, ⟨x, hforemost⟩, -⟩
      exact hnone p x hforemost.front hforemost.numeral
    · obtain ⟨value, hvalue, hcoerced⟩ := exists_coerce_of_leading_some htype hforemost hread
      exact .inl ⟨value, hvalue, hcoerced, fun p hrefused => hplain hrefused.separated⟩
    · exact .inr ⟨p, coerce_of_leading_error htype hread, htype, ⟨x, hforemost⟩, hconvert⟩
  · have hrefused : ∀ p, ¬ Refused type t p := fun p h => htype h.numeric
    cases type with
    | integer | real => simp at htype
    | logical => exact .inl ⟨_, rfl, .logical t, hrefused⟩
    | character | string | array | other =>
      exact .inl ⟨_, rfl, .raw t (by simp), hrefused⟩

/-! ### Reading variables -/

/-- Answers are read into variables, one after the other, the first of them the answer of the given
number. -/
inductive Fills (answers : Nat → Text) : Nat → List Text → Store → Store → Prop where
  | done (k : Nat) (store : Store) : Fills answers k [] store store
  | read {k : Nat} {name : Text} {rest : List Text} {v : Variable} {value : Value}
      {store last : Store} : store.get? name = some v → Coerced v.type (answers k) value →
      Fills answers (k + 1) rest (store.define { v with value }) last →
      Fills answers k (name :: rest) store last

variable {answers : Nat → Text} {around : Surroundings}

/-- A change that can be carried out is, if the observer does not object. -/
private theorem run_update_of_lenient (hlenient : around.Lenient) {s : RunState} {change : Change}
    {store : Store} (h : s.store.apply change = .ok store) :
    ∃ t, (update change).run around s = (.ok (), t) ∧ t.store = store ∧ t.trace = s.trace ∧
      t.prompts = s.prompts := by
  rw [run_update, h]
  simp only [run_notify]
  cases hnotices : around.notices with
  | none => exact ⟨_, rfl, rfl, rfl, rfl⟩
  | some notices =>
    simp only [hlenient notices hnotices]
    exact ⟨_, rfl, rfl, rfl, rfl⟩

/-- What becomes of a variable when a variable gets a new value. -/
private theorem get?_define_cases {store : Store} {first name : Text} {w v : Variable}
    (hw : store.get? first = some w) (hv : store.get? name = some v) (value : Value) :
    (v = w ∧ (store.define { w with value }).get? name = some { v with value }) ∨
    name ≠ first ∧ (store.define { w with value }).get? name = some v := by
  have hkey := Store.key_of_get? hw
  have hsame : ({ w with value } : Variable).key = w.key := rfl
  have hdefine := Store.get?_define store { w with value } name
  by_cases hname : w.key = name.lower
  · -- the same variable, perhaps by another spelling of its name
    have hfirst : store.get? name = store.get? first := by
      rw [Store.get?, Store.get?, ← hname, ← hkey]
    obtain rfl : v = w := Option.some.inj (hv.symm.trans (hfirst.trans hw))
    rw [if_pos (hsame.trans hname)] at hdefine
    exact .inl ⟨rfl, hdefine⟩
  · rw [if_neg fun h => hname (hsame.symm.trans h), hv] at hdefine
    refine .inr ⟨?_, hdefine⟩
    rintro rfl
    exact hname hkey

/-- No variable changes its type when a variable gets a new value. -/
private theorem exists_get?_define {store : Store} {first name : Text} {w v : Variable}
    (hw : store.get? first = some w) (hv : store.get? name = some v) (value : Value) :
    ∃ u, (store.define { w with value }).get? name = some u ∧ u.type = v.type := by
  rcases get?_define_cases hw hv value with ⟨-, hget⟩ | ⟨-, hget⟩
  · exact ⟨_, hget, rfl⟩
  · exact ⟨v, hget, rfl⟩

/-- What a variable holds behind the answers that were read: what it had, if it was not among the
variables, or else what one of the answers gave it. -/
private theorem Fills.get?_cases {k : Nat} {names : List Text} {store last : Store}
    (h : Fills answers k names store last) {name : Text} {v : Variable}
    (hv : store.get? name = some v) :
    (name ∉ names ∧ last.get? name = some v) ∨
    ∃ j value, k ≤ j ∧ j < k + names.length ∧ Coerced v.type (answers j) value ∧
      last.get? name = some { v with value } := by
  induction h generalizing v with
  | done k store => exact .inl ⟨List.not_mem_nil, hv⟩
  | @read k first rest w value store last hw hcoerced _ ih =>
    rcases get?_define_cases hw hv value with ⟨rfl, hget⟩ | ⟨hname, hget⟩
    · -- the first name leads to the variable; a later one may lead to it again
      rcases ih hget with ⟨-, hlast⟩ | ⟨j, value', hlow, hhigh, hread, hlast⟩
      · exact .inr ⟨k, value, Nat.le_refl k, by simp, hcoerced, hlast⟩
      · exact .inr ⟨j, value', by omega, by rw [List.length_cons]; omega, hread, hlast⟩
    · rcases ih hget with ⟨hnot, hlast⟩ | ⟨j, value', hlow, hhigh, hread, hlast⟩
      · refine .inl ⟨fun hmem => ?_, hlast⟩
        exact (List.mem_cons.mp hmem).elim hname hnot
      · exact .inr ⟨j, value', by omega, by rw [List.length_cons]; omega, hread, hlast⟩

/-- No answer is refused for its variable. -/
def Accepts (answers : Nat → Text) (k : Nat) (names : List Text) (store : Store) : Prop :=
  ∀ i name v p, names[i]? = some name → store.get? name = some v →
    ¬ Refused v.type (answers (k + i)) p

section Answers

variable {replies : Nat → Reply} (hlenient : around.Lenient)
  (hreplies : around.replies = some replies)

include hlenient hreplies

/-- What one answer does: the variable gets its value, or the answer is refused and nothing is
changed. -/
private theorem run_readInto_of_answer {name : Text} {s : RunState} {v : Variable}
    (hanswer : (replies s.prompts.size).outcome = .ok answer) (hv : s.store.get? name = some v) :
    (∃ value s', Coerced v.type answer value ∧ (∀ p, ¬ Refused v.type answer p) ∧
      (readInto name).run around s = (.ok (), s') ∧
      s'.store = s.store.define { v with value } ∧ s'.trace = s.trace ∧
      s'.prompts.size = s.prompts.size + 1) ∨
    ∃ p s', Refused v.type answer p ∧
      (readInto name).run around s = (.error (.invalidReal p), s') ∧ s.Untouched s' := by
  have hask : ∃ t, (ask (promptFor name)).run around s = (.ok answer, t) ∧ s.Untouched t ∧
      t.prompts.size = s.prompts.size + 1 := by
    simp [run_ask, hreplies, hanswer, RunState.Untouched]
  obtain ⟨t, ht, ⟨hstore, htrace⟩, hsize⟩ := hask
  have hread : (readInto name).run around s =
      (ofExcept (coerce v.type answer) >>= fun value =>
        update (.set name value true)).run around t := by
    rw [readInto, run_bind_ok run_get, Store.lookup_eq_ok_iff.mpr hv, ofExcept_ok_bind]
    exact run_bind_ok ht
  rcases coerce_cases v.type answer with ⟨value, hvalue, hcoerced, hnot⟩ | ⟨p, hvalue, hrefused⟩
  · have hset : t.store.apply (.set name value true) = .ok (s.store.define { v with value }) := by
      rw [hstore]
      exact Store.apply_set hv value true
    obtain ⟨s', hupdate, hrest⟩ := run_update_of_lenient hlenient hset
    refine .inl ⟨value, s', hcoerced, hnot, ?_, hrest.1, hrest.2.1.trans htrace, ?_⟩
    · rw [hread, hvalue, ofExcept_ok_bind, hupdate]
    · rw [hrest.2.2, hsize]
  · refine .inr ⟨p, t, hrefused, ?_, hstore, htrace⟩
    rw [hread, hvalue]
    rfl

/-- **What the answers to a row of questions do**: they are read into the variables, up to one that
is refused. -/
theorem run_readAll (names : List Text) (s : RunState)
    (hanswers : ∀ k, s.prompts.size ≤ k → k < s.prompts.size + names.length →
      (replies k).outcome = .ok (answers k))
    (hdeclared : ∀ name ∈ names, ∃ v, s.store.get? name = some v) :
    (∃ s', (readAll names).run around s = (.ok (), s') ∧
      Accepts answers s.prompts.size names s.store ∧
      Fills answers s.prompts.size names s.store s'.store ∧ s'.trace = s.trace) ∨
    ∃ i name v p s', names[i]? = some name ∧ s.store.get? name = some v ∧
      Refused v.type (answers (s.prompts.size + i)) p ∧
      (readAll names).run around s = (.error (.invalidReal p), s') ∧
      Fills answers s.prompts.size (names.take i) s.store s'.store ∧ s'.trace = s.trace := by
  induction names generalizing s with
  | nil =>
    refine .inl ⟨s, rfl, ?_, .done _ _, rfl⟩
    intro i name v p hi
    cases hi
  | cons name rest ih =>
    obtain ⟨⟨v, hv⟩, hrest⟩ := List.forall_mem_cons.mp hdeclared
    have hanswer : (replies s.prompts.size).outcome = .ok (answers s.prompts.size) :=
      hanswers _ (Nat.le_refl _) (by simp)
    rcases run_readInto_of_answer hlenient hreplies hanswer hv with
      ⟨value, t, hcoerced, hnot, hread, hstore, htrace, hsize⟩ |
      ⟨p, t, hrefused, hread, hstore, htrace⟩
    · -- a value changes no type, so what is refused later would have been refused before it too
      have hkept {other : Text} {u : Variable} (hu : s.store.get? other = some u) :
          ∃ w, t.store.get? other = some w ∧ w.type = u.type := by
        rw [hstore]
        exact exists_get?_define hv hu value
      have hshift (i : Nat) : s.prompts.size + (i + 1) = t.prompts.size + i := by omega
      have hlater := ih t
        (fun k hlow hhigh => hanswers k (by omega) (by rw [List.length_cons]; omega))
        (fun other hother => by
          obtain ⟨u, hu⟩ := hrest other hother
          obtain ⟨w, hw, -⟩ := hkept hu
          exact ⟨w, hw⟩)
      have hfirst {names' : List Text} {last : Store}
          (hfills : Fills answers t.prompts.size names' t.store last) :
          Fills answers s.prompts.size (name :: names') s.store last := by
        rw [hstore, hsize] at hfills
        exact .read hv hcoerced hfills
      rcases hlater with ⟨s', hrun, haccepts, hfills, htrace'⟩ |
        ⟨i, other, w, p, s', hi, hw, hrefused, hrun, hfills, htrace'⟩
      · refine .inl ⟨s', ?_, ?_, hfirst hfills, htrace'.trans htrace⟩
        · rw [readAll_cons, run_bind_ok hread, hrun]
        · rintro (_ | i) other u p hother hu
          · obtain rfl := Option.some.inj hother
            obtain rfl := Option.some.inj (hv.symm.trans hu)
            exact hnot p
          · obtain ⟨w, hw, htype⟩ := hkept hu
            rw [hshift, ← htype]
            exact haccepts i other w p hother hw
      · obtain ⟨u, hu⟩ := hrest other (List.mem_of_getElem? hi)
        obtain ⟨w', hw', htype⟩ := hkept hu
        obtain rfl := Option.some.inj (hw.symm.trans hw')
        refine .inr ⟨i + 1, other, u, p, s', hi, hu, ?_, ?_, hfirst hfills, htrace'.trans htrace⟩
        · rw [hshift, ← htype]
          exact hrefused
        · rw [readAll_cons, run_bind_ok hread, hrun]
    · refine .inr ⟨0, name, v, p, t, rfl, hv, hrefused, ?_, ?_, htrace⟩
      · rw [readAll_cons, run_bind, hread]
      · rw [hstore]
        exact .done _ _

/-- **Which answers can be read, and what they give to variables.** Let answers come for variables
that are there, whatever their types. If none of them is refused, the statement ends well, the
answers are read into the variables in order, and each variable then holds what its type asks for:
an integer, a finite number, a truth value, or the answer itself. Zero stands for an answer to a
number that starts with no numeral. An answer is refused only for a number, if a numeral that was
found in it cannot be converted, because a separator stands before it. Then the statement ends in a
fault, after the answers before it were read. -/
theorem input_suits_types (names : List Text) (source : Text) (s : RunState)
    (hanswers : ∀ k, s.prompts.size ≤ k → k < s.prompts.size + names.length →
      (replies k).outcome = .ok (answers k))
    (hdeclared : ∀ name ∈ names, s.store.contains name = true) :
    (Accepts answers s.prompts.size names s.store ∧
      ∃ s', (input names source).run around s = (.ok (), s') ∧
        Fills answers s.prompts.size names s.store s'.store ∧
        s'.trace = s.trace.add .input ("Leer ".toList ++ source) ∧
        ∀ name ∈ names, ∃ v value k, s.store.get? name = some v ∧
          s'.store.get? name = some { v with value } ∧
          s.prompts.size ≤ k ∧ k < s.prompts.size + names.length ∧
          Suits (answers k) v.type value ∧
          (v.type ∈ [.integer, .real] → (∀ p x, p <+: answers k → ¬ Spaced isBlank p x) →
            value = .int 0)) ∨
    ∃ i name v p s', names[i]? = some name ∧ s.store.get? name = some v ∧
      Refused v.type (answers (s.prompts.size + i)) p ∧ Separated (answers (s.prompts.size + i)) ∧
      (input names source).run around s = (.error (.invalidReal p), s') ∧
      Fills answers s.prompts.size (names.take i) s.store s'.store ∧ s'.trace = s.trace := by
  have hget (name : Text) (hname : name ∈ names) : ∃ v, s.store.get? name = some v :=
    Option.isSome_iff_exists.mp (hdeclared name hname)
  rcases run_readAll hlenient hreplies names s hanswers hget with
    ⟨t, hrun, haccepts, hfills, htrace⟩ | ⟨i, name, v, p, t, hi, hv, hrefused, hrun, hfills, htrace⟩
  · refine .inl ⟨haccepts, { t with trace := t.trace.add .input ("Leer ".toList ++ source) }, ?_,
      hfills, ?_, fun name hname => ?_⟩
    · rw [input_eq, run_bind_ok hrun, run_addNode]
    · rw [htrace]
    · obtain ⟨v, hv⟩ := hget name hname
      rcases hfills.get?_cases hv with ⟨hnot, -⟩ | ⟨k, value, hlow, hhigh, hcoerced, hlast⟩
      · exact absurd hname hnot
      · exact ⟨v, value, k, hv, hlast, hlow, hhigh, hcoerced.suits, hcoerced.eq_zero⟩
  · refine .inr ⟨i, name, v, p, t, hi, hv, hrefused, hrefused.separated, ?_, hfills, htrace⟩
    rw [input_eq, run_bind, hrun]

end Answers

/-- The names of the variables of `mixedState`. -/
def mixedNames : List Text := ["n".toList, "x".toList, "b".toList, "t".toList]

/-- The start of a run, with an integer, a number, a truth value and a text. -/
def mixedState : RunState :=
  { RunState.initial with
    store := ⟨[⟨"n".toList, .integer, .int 0⟩, ⟨"x".toList, .real, .int 0⟩,
      ⟨"b".toList, .logical, .bool false⟩, ⟨"t".toList, .string, .text []⟩]⟩ }

/-- Answers for these variables. -/
def mixedAnswers : List Text :=
  ["3.9 kg".toList, "\t-2.5e1x".toList, " Verdadero".toList, "\x1c5".toList]

/-- The separator in the last answer does no harm, as it is for a text. -/
private theorem accepts_mixedAnswers :
    Accepts (fun k => mixedAnswers.getD k []) 0 mixedNames mixedState.store := by
  intro i name v p hi hv hrefused
  rcases i with _ | _ | _ | _ | i
  · exact separated_iff.mp hrefused.separated (by decide)
  · exact separated_iff.mp hrefused.separated (by decide)
  · obtain rfl := Option.some.inj hi
    obtain rfl := Option.some.inj hv
    exact absurd hrefused.numeric (by decide)
  · obtain rfl := Option.some.inj hi
    obtain rfl := Option.some.inj hv
    exact absurd hrefused.numeric (by decide)
  · cases hi

/-- Answers for variables of four types. -/
theorem input_suits_types_mixedAnswers :
    ∃ s', (input mixedNames "n, x, b, t".toList).run (Surroundings.unattended.scripted mixedAnswers)
        mixedState = (.ok (), s') ∧
      Fills (fun k => mixedAnswers.getD k []) 0 mixedNames mixedState.store s'.store ∧
      s'.trace = mixedState.trace.add .input "Leer n, x, b, t".toList ∧
      ∀ name ∈ mixedNames, ∃ v value k, mixedState.store.get? name = some v ∧
        s'.store.get? name = some { v with value } ∧ k < 4 ∧
        Suits (mixedAnswers.getD k []) v.type value := by
  have hlenient : (Surroundings.unattended.scripted mixedAnswers).Lenient :=
    Surroundings.lenient_unattended
  have hdeclared : ∀ name ∈ mixedNames, mixedState.store.contains name = true :=
    List.all_eq_true.mp (by decide)
  rcases input_suits_types hlenient rfl mixedNames "n, x, b, t".toList mixedState
      (fun _ _ _ => rfl) hdeclared with
    ⟨-, s', hrun, hfills, htrace, hvalues⟩ | ⟨i, name, v, p, -, hi, hv, hrefused, -⟩
  · refine ⟨s', hrun, hfills, htrace, fun name hname => ?_⟩
    obtain ⟨v, value, k, hv, hvalue, -, hk, hsuits, -⟩ := hvalues name hname
    exact ⟨v, value, k, hv, hvalue, hk, hsuits⟩
  · exact absurd hrefused (accepts_mixedAnswers i name v p hi hv)

/-- **A separator before the number in an answer for an integer**: the answer is refused, and the
variable keeps what it had. -/
theorem input_refuses_separated :
    (input ["n".toList] "n".toList).run (.scripted .unattended ["\x1c5".toList]) mixedState =
      (.error (.invalidReal "\x1c5".toList),
        { mixedState with prompts := #[promptFor "n".toList] }) := rfl

end Exec

end Pseudocode
