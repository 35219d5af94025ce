import Pseudocode.Expr.Eval
import Pseudocode.Proofs.Expr.Straying

/-!
# Calls that stray

For every function and every list of arguments it is said whether a call strays, and with which
fault (`Builtin.Strays`, `Builtin.escapes_apply_iff`). The functions of one number stray where they
need a double and no double is near to the number, and at the infinities; the functions of texts
stray on integers that are too long to be written. `convertiranumero` and `subcadena` also read
numbers in texts, and stray where the text is none.

`abs`, `ln` and `exp` never stray.
-/

namespace Pseudocode

open Binary64

/-! ### Functions of one number -/

namespace Number

variable {n : Number} {fault : Fault}

private theorem isAtLeast_int_iff {j k : Int} : (int j).isAtLeast k = true ↔ k ≤ j := by
  rw [isAtLeast, compare?]
  cases h : compare j k with
  | lt => simp [compare_lt_iff_lt.mp h]
  | eq => simp [compare_eq_iff_eq.mp h]
  | gt => simp [(compare_gt_iff_gt.mp h).le]

private theorem escapes_squareRoot_iff : Escapes n.squareRoot fault ↔
    ∃ k : Int, n = int k ∧ (overflow : Int) ≤ k ∧ fault = .integerTooLarge := by
  rw [squareRoot]
  split
  · next h =>
    rw [escapes_map_iff, escapes_toReal_iff]
    constructor
    · rintro ⟨⟨k, rfl, hk⟩, rfl⟩
      have hpos : 0 ≤ k := isAtLeast_int_iff.mp h
      exact ⟨k, rfl, by omega, rfl⟩
    · rintro ⟨k, rfl, hk, rfl⟩
      exact ⟨⟨k, rfl, by omega⟩, rfl⟩
  · next h =>
    refine iff_of_false escapes_ok ?_
    rintro ⟨k, rfl, hk, -⟩
    exact h (isAtLeast_int_iff.mpr (by omega))

private theorem escapes_periodic_iff {f : Float → Float} : Escapes (n.periodic f) fault ↔
    n.IsVast ∧ fault = .integerTooLarge ∨
      ∃ x negative, n = real x ∧ form x = .infinite negative ∧ fault = .outsideDomain := by
  rw [periodic, escapes_bind_iff, escapes_toReal_iff]
  refine or_congr_right ?_
  constructor
  · rintro ⟨x, hx, h⟩
    split at h
    · next hinf =>
      obtain rfl := (escapes_error_iff rfl).mp h
      obtain ⟨negative, hnegative⟩ := isInf_iff.mp hinf
      -- the double near to an integer is finite, so the number is a double itself
      cases n with
      | int k =>
        obtain ⟨p, hp⟩ := exists_form_of_toReal_int hx
        cases hnegative.symm.trans hp
      | real y =>
        cases hx
        exact ⟨x, negative, rfl, hnegative, rfl⟩
    · exact absurd h escapes_pure
  · rintro ⟨x, negative, rfl, hx, rfl⟩
    refine ⟨x, rfl, ?_⟩
    rw [if_pos (isInf_iff.mpr ⟨negative, hx⟩)]
    exact ⟨rfl, rfl⟩

private theorem escapes_cut_iff : Escapes n.cut fault ↔ n.IsVast ∧ fault = .integerTooLarge := by
  rw [cut, escapes_bind_iff, isFinite, escapes_map_iff, escapes_toReal_iff]
  refine or_iff_left ?_
  rintro ⟨finite, hfinite, h⟩
  split at h
  · next htrue =>
    have htruncate : Escapes n.truncate fault := escapes_map_iff.mp h
    cases n with
    | int k => exact escapes_ok htruncate
    | real x =>
      have hx : x.isFinite = true := (Except.ok.inj hfinite).trans htrue
      obtain ⟨p, hp⟩ := isFinite_iff.mp hx
      rw [truncate_eq_ok hp] at htruncate
      exact escapes_ok htruncate
  · exact escapes_pure h

private theorem escapes_round_iff :
    Escapes n.round fault ↔ n.IsVast ∧ fault = .integerTooLarge := by
  rw [round, escapes_bind_iff, escapes_toReal_iff]
  refine or_iff_left ?_
  rintro ⟨x, -, h⟩
  split at h
  · split at h
    · exact escapes_pure h
    · exact escapes_pure h
  · exact escapes_pure h

private theorem truncate_eq_error_iff : n.truncate = .error fault ↔
    ∃ x, n = real x ∧ (form x = .nan ∧ fault = .undefinedInteger ∨
      ∃ negative, form x = .infinite negative ∧ fault = .infiniteInteger) := by
  cases n with
  | int k => simp [truncate]
  | real x =>
    rw [truncate]
    cases hx : form x <;> simp [hx, eq_comm]

end Number

namespace NumberFunction

/-- What makes a function of one number stray, and with which fault. -/
inductive Strays : NumberFunction → Number → Fault → Prop where
  /-- The square root of an integer that no double is near to. -/
  | root {k : Int} : (overflow : Int) ≤ k → Strays .squareRoot (.int k) .integerTooLarge
  /-- Such an integer as an angle, or to be cut or rounded. -/
  | vast {f : NumberFunction} {n : Number} : f ∈ [sine, cosine, tangent, cut, round] →
      n.IsVast → Strays f n .integerTooLarge
  /-- An infinite angle. -/
  | angle {f : NumberFunction} {x : Float} {negative : Bool} : f ∈ [sine, cosine, tangent] →
      form x = .infinite negative → Strays f (.real x) .outsideDomain

variable {f : NumberFunction} {n : Number} {fault : Fault}

private theorem strays_angle_iff (hf : f ∈ [sine, cosine, tangent]) : f.Strays n fault ↔
    n.IsVast ∧ fault = .integerTooLarge ∨
      ∃ x negative, n = .real x ∧ form x = .infinite negative ∧ fault = .outsideDomain := by
  constructor
  · intro h
    cases h with
    | root => simp at hf
    | vast _ h => exact .inl ⟨h, rfl⟩
    | angle _ h => exact .inr ⟨_, _, rfl, h, rfl⟩
  · rintro (⟨h, rfl⟩ | ⟨x, negative, rfl, h, rfl⟩)
    · refine .vast ?_ h
      simp only [List.mem_cons] at hf ⊢
      tauto
    · exact .angle hf h

private theorem strays_whole_iff (hf : f = cut ∨ f = round) : f.Strays n fault ↔
    n.IsVast ∧ fault = .integerTooLarge := by
  constructor
  · intro h
    cases h with
    | root => rcases hf with hf | hf <;> cases hf
    | vast _ h => exact ⟨h, rfl⟩
    | angle hf' _ => rcases hf with rfl | rfl <;> simp at hf'
  · rintro ⟨h, rfl⟩
    refine .vast ?_ h
    rcases hf with rfl | rfl <;> decide

/-- A fault escapes from a function of one number exactly if the function strays on it. -/
theorem escapes_apply_iff : Escapes (f.apply n) fault ↔ f.Strays n fault := by
  cases f with
  | squareRoot =>
    refine Number.escapes_squareRoot_iff.trans ⟨?_, fun h => ?_⟩
    · rintro ⟨k, rfl, hk, rfl⟩
      exact .root hk
    · cases h with
      | root hk => exact ⟨_, rfl, hk, rfl⟩
      | vast hf => simp at hf
      | angle hf => simp at hf
  | sine | cosine | tangent =>
    exact Number.escapes_periodic_iff.trans (strays_angle_iff (by decide)).symm
  | cut => exact Number.escapes_cut_iff.trans (strays_whole_iff (.inl rfl)).symm
  | round => exact Number.escapes_round_iff.trans (strays_whole_iff (.inr rfl)).symm
  | absolute | logarithm | exponential =>
    refine iff_of_false escapes_ok fun h => ?_
    cases h with
    | vast hf => simp at hf
    | angle hf => simp at hf

/-- A function strays with a stray fault. -/
private theorem Strays.isStray (h : f.Strays n fault) : fault.isStray = true := by
  cases h <;> rfl

end NumberFunction

/-! ### Functions of one text -/

namespace TextFunction

/-- What makes a function of one text stray, and with which fault. -/
inductive Strays : TextFunction → Value → Fault → Prop where
  /-- An integer that cannot be written. -/
  | unwritable {f : TextFunction} {v : Value} : v.IsUnwritable →
      Strays f v (.tooManyDigits none)
  /-- A numeral behind a blank that cannot stand before a number. -/
  | separated {v : Value} {t rest : Text} {x : Float} : v.plain = .ok t →
      Numeral.signed? (t.dropWhile Text.isBlank) = some (x, rest) →
      (t.takeWhile Text.isBlank).all Text.isNumeralBlank = false →
      Strays .toNumber v (.invalidReal (t.take (t.length - rest.length)))

variable {f : TextFunction} {v : Value} {fault : Fault}

private theorem escapes_readNumber_iff {t : Text} : Escapes (readNumber t) fault ↔
    ∃ x rest, Numeral.signed? (t.dropWhile Text.isBlank) = some (x, rest) ∧
      (t.takeWhile Text.isBlank).all Text.isNumeralBlank = false ∧
      fault = .invalidReal (t.take (t.length - rest.length)) := by
  have hread : Escapes (readNumber t) fault ↔ Escapes (Numeral.leading t) fault := by
    rw [readNumber, escapes_bind_iff]
    refine or_iff_left ?_
    rintro ⟨x, -, h⟩
    cases x with
    | none => exact escapes_pure h
    | some x => exact escapes_pure h
  rw [hread, Numeral.leading]
  split
  · next h => simp [h]
  · next x rest h =>
    split
    · next hall => simp [hall]
    · next hall =>
      rw [escapes_error_iff rfl]
      constructor
      · rintro rfl
        exact ⟨x, rest, h, (Bool.not_eq_true _).mp hall, rfl⟩
      · rintro ⟨y, more, hy, -, rfl⟩
        cases h.symm.trans hy
        rfl

/-- A fault escapes from a function of one value exactly if the function strays on it. -/
theorem escapes_apply_iff : Escapes (f.apply v) fault ↔ f.Strays v fault := by
  rw [apply, escapes_bind_iff, Value.escapes_plain_iff]
  constructor
  · rintro (⟨h, rfl⟩ | ⟨t, ht, h⟩)
    · exact .unwritable h
    · cases f with
      | length | upper | lower => exact absurd h escapes_pure
      | toNumber =>
        obtain ⟨x, rest, hx, hall, rfl⟩ := escapes_readNumber_iff.mp h
        exact .separated ht hx hall
  · intro h
    cases h with
    | unwritable h => exact .inl ⟨h, rfl⟩
    | separated ht hx hall =>
      exact .inr ⟨_, ht, escapes_readNumber_iff.mpr ⟨_, _, hx, hall, rfl⟩⟩

/-- A function of one value strays with a stray fault. -/
private theorem Strays.isStray (h : f.Strays v fault) : fault.isStray = true := by
  cases h <;> rfl

end TextFunction

/-! ### Evaluations -/

namespace Eval

variable {α β : Type} {scope : Scope} {p : Progress} {fault : Fault}

/-- How an evaluation ends that goes on from the given progress. -/
def outcome (e : Eval α) (scope : Scope) (p : Progress) : Except Fault α × Progress :=
  (ReaderT.run e scope).run.run p

/-- An evaluation that starts without reports has its outcome from there. -/
theorem run_eq_outcome (e : Eval α) (scope : Scope) (drawn : Nat) :
    e.run scope drawn = e.outcome scope ⟨drawn, #[]⟩ := rfl

/-- A result or a fault that there is already draws nothing and reports nothing. -/
theorem outcome_ofExcept (x : Except Fault α) : (ofExcept x).outcome scope p = (x, p) := by
  cases x <;> rfl

/-- What looks at its scope sees the scope. -/
theorem outcome_read_bind (k : Scope → Eval α) :
    ((do let around ← read; k around) : Eval α).outcome scope p = (k scope).outcome scope p := rfl

/-- Where the first part ends well, the second one goes on from there. -/
theorem outcome_bind_ok {e : Eval α} {k : α → Eval β} {a : α} {q : Progress}
    (h : e.outcome scope p = (.ok a, q)) :
    (e >>= k).outcome scope p = (k a).outcome scope q := by
  simp only [outcome, ReaderT.run_bind, ExceptT.run_bind, StateT.run_bind] at h ⊢
  rw [h]
  rfl

/-- A fault in the first part ends both. -/
theorem outcome_bind_error {e : Eval α} {k : α → Eval β} {f : Fault} {q : Progress}
    (h : e.outcome scope p = (.error f, q)) :
    (e >>= k).outcome scope p = (.error f, q) := by
  simp only [outcome, ReaderT.run_bind, ExceptT.run_bind, StateT.run_bind] at h ⊢
  rw [h]
  rfl

/-- A fault escapes from two parts exactly if it escapes from the first, or from the second behind
it. -/
theorem escapes_outcome_bind_iff {e : Eval α} {k : α → Eval β} :
    Escapes ((e >>= k).outcome scope p).1 fault ↔ Escapes (e.outcome scope p).1 fault ∨
      ∃ a q, e.outcome scope p = (.ok a, q) ∧ Escapes ((k a).outcome scope q).1 fault := by
  rcases he : e.outcome scope p with ⟨f | a, q⟩
  · rw [outcome_bind_error he]
    simp [Escapes]
  · rw [outcome_bind_ok he]
    simp

/-- What is made of a value changes nothing in how there may be none. -/
theorem escapes_outcome_map_iff {e : Eval α} {g : α → β} :
    Escapes ((e >>= fun a => pure (g a)).outcome scope p).1 fault ↔
      Escapes (e.outcome scope p).1 fault := by
  rw [escapes_outcome_bind_iff]
  refine or_iff_left ?_
  rintro ⟨a, q, -, h⟩
  exact escapes_ok h

/-- A fault that there is already escapes as it would without an evaluation. -/
theorem escapes_outcome_ofExcept_iff {x : Except Fault α} :
    Escapes ((ofExcept x).outcome scope p).1 fault ↔ Escapes x fault := by
  rw [outcome_ofExcept]

private theorem escapes_outcome_ofExcept_bind_iff {x : Except Fault α} {k : α → Eval β} :
    Escapes ((ofExcept x >>= k).outcome scope p).1 fault ↔ Escapes x fault ∨
      ∃ a, x = .ok a ∧ Escapes ((k a).outcome scope p).1 fault := by
  rw [escapes_outcome_bind_iff, outcome_ofExcept]
  simp

/-- An argument that has to be a number, and what is made of it. -/
private theorem escapes_outcome_requireNumber_iff {v : Value} {operation : Text}
    {k : Number → Eval α} :
    Escapes ((ofExcept (v.requireNumber operation) >>= k).outcome scope p).1 fault ↔
      ∃ n, v.toNumber? = some n ∧ Escapes ((k n).outcome scope p).1 fault := by
  rw [escapes_outcome_ofExcept_bind_iff]
  rcases Value.requireNumber_cases operation v with ⟨n, hn, hv⟩ | ⟨hn, problem, hv⟩
  · simp [hv, hn]
  · simp [hv, hn]

end Eval

/-! ### All functions -/

namespace Builtin

/-- What stands for no position in a text, and the fault that says so. -/
inductive NoPosition : Value → Fault → Prop where
  | null : NoPosition .null .nullInteger
  | array {xs : Array Float} : NoPosition (.array xs) .arrayInteger
  | nan {x : Float} : form x = .nan → NoPosition (.real x) .undefinedInteger
  | infinite {x : Float} {negative : Bool} : form x = .infinite negative →
      NoPosition (.real x) .infiniteInteger
  | text {t : Text} {fault : Fault} : Numeral.integer t = .error fault →
      NoPosition (.text t) fault

/-- What makes a call stray, and with which fault. -/
inductive Strays : Builtin → List Value → Fault → Prop where
  | ofNumber {g : NumberFunction} {v : Value} {n : Number} {fault : Fault} :
      v.toNumber? = some n → g.Strays n fault → Strays (ofNumber g) [v] fault
  /-- A random number below infinity. -/
  | random {x : Float} : form x = .infinite false → Strays random [.real x] .infiniteInteger
  | ofText {g : TextFunction} {v : Value} {fault : Fault} :
      g.Strays v fault → Strays (ofText g) [v] fault
  /-- A part of an integer that cannot be written. -/
  | part {v first last : Value} : v.IsUnwritable →
      Strays substring [v, first, last] (.tooManyDigits none)
  /-- A part from no position on. -/
  | first {v first last : Value} {fault : Fault} : ¬ v.IsUnwritable → NoPosition first fault →
      Strays substring [v, first, last] fault
  /-- A part up to no position. -/
  | last {v first last : Value} {i : Int} {fault : Fault} : ¬ v.IsUnwritable →
      toPosition first = .ok i → NoPosition last fault →
      Strays substring [v, first, last] fault
  | concatenate {a b : Value} : a.IsUnwritable ∨ b.IsUnwritable →
      Strays concatenate [a, b] (.tooManyDigits none)
  | toText {v : Value} : v.IsUnwritable → Strays toText [v] (.tooManyDigits none)

variable {f : Builtin} {name : Text} {arguments : List Value} {scope : Scope} {p : Progress}
  {fault : Fault} {v first last : Value}

private theorem integer_eq_error {t : Text} (h : Numeral.integer t = .error fault) :
    fault = .invalidInteger t ∨ ∃ k, fault = .tooManyDigits (some k) := by
  rw [Numeral.integer] at h
  split at h
  dsimp only at h
  split at h
  · exact .inl (Except.error.inj h).symm
  · split at h
    · exact .inr ⟨_, (Except.error.inj h).symm⟩
    · split at h
      · exact .inl (Except.error.inj h).symm
      · cases h

/-- What is no position is refused with a stray fault. -/
private theorem NoPosition.isStray (h : NoPosition v fault) : fault.isStray = true := by
  cases h with
  | text h => rcases integer_eq_error h with rfl | ⟨k, rfl⟩ <;> rfl
  | null | array | nan | infinite => rfl

private theorem toPosition_eq_error_iff : toPosition v = .error fault ↔ NoPosition v fault := by
  constructor
  · intro h
    cases v with
    | null =>
      cases h
      exact .null
    | bool b => cases h
    | number n =>
      obtain ⟨x, rfl, ⟨hx, rfl⟩ | ⟨negative, hx, rfl⟩⟩ := Number.truncate_eq_error_iff.mp h
      · exact .nan hx
      · exact .infinite hx
    | text t => exact .text h
    | array xs =>
      cases h
      exact .array
  · intro h
    cases h with
    | null | array => rfl
    | nan hx => exact Number.truncate_eq_error_iff.mpr ⟨_, rfl, .inl ⟨hx, rfl⟩⟩
    | infinite hx => exact Number.truncate_eq_error_iff.mpr ⟨_, rfl, .inr ⟨_, hx, rfl⟩⟩
    | text h => exact h

/-- **A call strays with a stray fault.** -/
theorem Strays.isStray (h : f.Strays arguments fault) : fault.isStray = true := by
  cases h with
  | ofNumber _ h => exact h.isStray
  | ofText h => exact h.isStray
  | first _ h => exact h.isStray
  | last _ _ h => exact h.isStray
  | random | part | concatenate | toText => rfl

private theorem escapes_toPosition_iff : Escapes (toPosition v) fault ↔ NoPosition v fault := by
  rw [Escapes, toPosition_eq_error_iff]
  refine and_iff_left_of_imp fun h => ?_
  cases h with
  | text h => rcases integer_eq_error h with rfl | ⟨k, rfl⟩ <;> rfl
  | null | array | nan | infinite => rfl

private theorem escapes_substringOf_iff :
    Escapes (substringOf v first last) fault ↔ Strays substring [v, first, last] fault := by
  rw [substringOf, escapes_bind_iff, Value.escapes_plain_iff]
  have hwritable {t : Text} (ht : v.plain = .ok t) : ¬ v.IsUnwritable := fun h => by
    cases ht.symm.trans (Value.plain_eq_error_iff.mpr ⟨h, rfl⟩)
  constructor
  · rintro (⟨h, rfl⟩ | ⟨t, ht, h⟩)
    · exact .part h
    · rcases escapes_bind_iff.mp h with h | ⟨i, hi, h⟩
      · exact .first (hwritable ht) (escapes_toPosition_iff.mp h)
      · exact .last (hwritable ht) hi (escapes_toPosition_iff.mp (escapes_map_iff.mp h))
  · intro h
    cases h with
    | part h => exact .inl ⟨h, rfl⟩
    | first hv h =>
      obtain ⟨t, ht⟩ := Value.exists_plain hv
      exact .inr ⟨t, ht, escapes_bind_iff.mpr (.inl (escapes_toPosition_iff.mpr h))⟩
    | last hv hi h =>
      obtain ⟨t, ht⟩ := Value.exists_plain hv
      refine .inr ⟨t, ht, escapes_bind_iff.mpr (.inr ⟨_, hi, ?_⟩)⟩
      exact escapes_map_iff.mpr (escapes_toPosition_iff.mpr h)

/-- Only an infinity is above one and has no integer part. -/
private theorem escapes_truncate_iff {n : Number} (h : n.isAtLeast 1 = true) :
    Escapes n.truncate fault ↔
      ∃ x, n = .real x ∧ form x = .infinite false ∧ fault = .infiniteInteger := by
  rw [Escapes, Number.truncate_eq_error_iff]
  constructor
  · rintro ⟨⟨x, rfl, hx⟩, -⟩
    rw [Number.isAtLeast, Number.compare?, Number.compare?.compareReal] at h
    rcases hx with ⟨hx, -⟩ | ⟨negative, hx, rfl⟩
    · simp [hx] at h
    · cases negative with
      | false => exact ⟨x, rfl, hx, rfl⟩
      | true => simp [hx] at h
  · rintro ⟨x, rfl, hx, rfl⟩
    exact ⟨⟨x, rfl, .inr ⟨false, hx, rfl⟩⟩, rfl⟩

private theorem isAtLeast_infinite {x : Float} (hx : form x = .infinite false) :
    (Number.real x).isAtLeast 1 = true := by
  rw [Number.isAtLeast, Number.compare?, Number.compare?.compareReal, hx]
  rfl

private theorem escapes_randomBelow_iff {n : Number} :
    Escapes ((randomBelow n).outcome scope p).1 fault ↔
      ∃ x, n = .real x ∧ form x = .infinite false ∧ fault = .infiniteInteger := by
  rw [randomBelow]
  split
  · next h =>
    rw [Eval.escapes_outcome_ofExcept_bind_iff, escapes_truncate_iff h]
    refine or_iff_left ?_
    rintro ⟨bound, -, h⟩
    exact escapes_ok h
  · next h =>
    refine iff_of_false escapes_ok ?_
    rintro ⟨x, rfl, hx, -⟩
    exact h (isAtLeast_infinite hx)

private theorem apply_of_length_ne (h : arguments.length ≠ f.arity) :
    f.apply name arguments = throw (.ofProblem (.wrongArity name f.arity arguments.length)) := by
  unfold apply
  split
  all_goals first | exact absurd rfl h | rfl

private theorem Strays.length_eq (h : f.Strays arguments fault) : arguments.length = f.arity := by
  cases h <;> rfl

private theorem escapes_ofNumber_iff {g : NumberFunction} :
    Escapes (((ofNumber g).apply name [v]).outcome scope p).1 fault ↔
      Strays (ofNumber g) [v] fault := by
  refine Eval.escapes_outcome_requireNumber_iff.trans ⟨?_, fun h => ?_⟩
  · rintro ⟨n, hn, h⟩
    rw [Eval.escapes_outcome_map_iff, Eval.escapes_outcome_ofExcept_iff] at h
    exact .ofNumber hn (NumberFunction.escapes_apply_iff.mp h)
  · cases h with
    | ofNumber hn h =>
      refine ⟨_, hn, ?_⟩
      rw [Eval.escapes_outcome_map_iff, Eval.escapes_outcome_ofExcept_iff]
      exact NumberFunction.escapes_apply_iff.mpr h

private theorem escapes_random_iff :
    Escapes ((random.apply name [v]).outcome scope p).1 fault ↔ Strays random [v] fault := by
  refine Eval.escapes_outcome_requireNumber_iff.trans ⟨?_, fun h => ?_⟩
  · rintro ⟨n, hn, h⟩
    obtain ⟨x, rfl, hx, rfl⟩ := escapes_randomBelow_iff.mp h
    -- a truth value stands for an integer, so the argument is the infinity itself
    cases v with
    | number m =>
      cases hn
      exact .random hx
    | null | bool _ | text _ | array _ => cases hn
  · cases h with
    | random hx => exact ⟨_, rfl, escapes_randomBelow_iff.mpr ⟨_, rfl, hx, rfl⟩⟩

/-- **A fault escapes from a call exactly if the function strays** on the arguments. -/
theorem escapes_apply_iff :
    Escapes ((f.apply name arguments).outcome scope p).1 fault ↔ f.Strays arguments fault := by
  by_cases hlength : arguments.length = f.arity
  · cases f with
    | ofNumber g =>
      obtain ⟨v, rfl⟩ := List.length_eq_one_iff.mp hlength
      exact escapes_ofNumber_iff
    | random =>
      obtain ⟨v, rfl⟩ := List.length_eq_one_iff.mp hlength
      exact escapes_random_iff
    | ofText g =>
      obtain ⟨v, rfl⟩ := List.length_eq_one_iff.mp hlength
      refine Eval.escapes_outcome_ofExcept_iff.trans
        (TextFunction.escapes_apply_iff.trans ⟨.ofText, fun h => ?_⟩)
      cases h with
      | ofText h => exact h
    | substring =>
      obtain ⟨v, first, last, rfl⟩ := List.length_eq_three.mp hlength
      exact Eval.escapes_outcome_ofExcept_iff.trans escapes_substringOf_iff
    | concatenate =>
      obtain ⟨a, b, rfl⟩ := List.length_eq_two.mp hlength
      refine Eval.escapes_outcome_ofExcept_iff.trans
        (Value.escapes_concatenate_iff.trans ⟨?_, fun h => ?_⟩)
      · rintro ⟨h, rfl⟩
        exact .concatenate h
      · cases h with
        | concatenate h => exact ⟨h, rfl⟩
    | toText =>
      obtain ⟨v, rfl⟩ := List.length_eq_one_iff.mp hlength
      refine Eval.escapes_outcome_map_iff.trans (Eval.escapes_outcome_ofExcept_iff.trans
        (Value.escapes_display_iff.trans ⟨?_, fun h => ?_⟩))
      · rintro ⟨h, rfl⟩
        exact .toText h
      · cases h with
        | toText h => exact ⟨h, rfl⟩
  · rw [apply_of_length_ne hlength]
    exact iff_of_false escapes_ofProblem (mt Strays.length_eq hlength)

end Builtin

end Pseudocode
