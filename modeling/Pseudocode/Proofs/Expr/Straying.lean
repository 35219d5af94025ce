import Pseudocode.Expr.Builtin
import Pseudocode.Proofs.Binary64.Range

/-!
# Operations that stray

An operation whose operands do not fit fails with a problem of the expression, which a condition can
take for an answer. Some operations fail in other ways: they meet an integer that no double is near
to, or one that is too long to be written, or an infinity where there is none to be had. Such faults
are *stray* (`Fault.isStray`).

`Escapes x fault` says that a computation ends in a fault that is not a problem of the expression.
For every operator it is said for which operands that happens (`BinaryOp.Strays`), and that it
happens for no others (`BinaryOp.escapes_apply_iff`). Operators before an operand, powers, `=` and
`<>` never stray.
-/

namespace Pseudocode

namespace Fault

/-- A problem with an expression or with the value of one. -/
def isExpression : Fault → Bool
  | expression _ _ => true
  | _ => false

/-- A name that is not defined, or an index outside an array. -/
def isUndefined : Fault → Bool
  | undefinedVariable _ _ | undefinedArray _ | indexOutOfRange _ _ _ => true
  | _ => false

/-- A fault of the arithmetic or of the text functions below the language. -/
def isStray : Fault → Bool
  | integerTooLarge | quotientTooLarge | infiniteInteger | outsideDomain | undefinedInteger
  | invalidInteger _ | invalidReal _ | tooManyDigits _ | nullInteger | arrayInteger => true
  | _ => false

end Fault

/-! ### Computations that end in other faults -/

section Escapes

variable {α β γ : Type} {fault : Fault}

/-- The computation ends in the fault, and the fault is not a problem of the expression. -/
def Escapes (x : Except Fault α) (fault : Fault) : Prop :=
  x = .error fault ∧ fault.isExpression = false

@[simp] theorem escapes_ok {a : α} : ¬ Escapes (.ok a) fault := fun h => nomatch h.1

@[simp] theorem escapes_pure {a : α} : ¬ Escapes (pure a : Except Fault α) fault :=
  fun h => nomatch h.1

@[simp] theorem escapes_ofProblem {problem : Problem} :
    ¬ Escapes (.error (.ofProblem problem) : Except Fault α) fault := by
  rintro ⟨h, hfault⟩
  cases h
  cases hfault

/-- A fault that is no problem of the expression escapes as it is. -/
theorem escapes_error_iff {f : Fault} (hf : f.isExpression = false) :
    Escapes (.error f : Except Fault α) fault ↔ fault = f := by
  constructor
  · rintro ⟨h, -⟩
    exact (Except.error.inj h).symm
  · rintro rfl
    exact ⟨rfl, hf⟩

/-- A computation that fails with one fault only, which is no problem of the expression. -/
private theorem escapes_of_eq_error_iff {x : Except Fault α} {f : Fault} {P : Prop}
    (hf : f.isExpression = false) (hx : ∀ g, x = .error g ↔ P ∧ g = f) :
    Escapes x fault ↔ P ∧ fault = f := by
  rw [Escapes, hx]
  refine and_iff_left_of_imp ?_
  rintro ⟨-, rfl⟩
  exact hf

/-- A fault escapes from two parts exactly if it escapes from the first, or from the second behind
it. -/
theorem escapes_bind_iff {x : Except Fault α} {k : α → Except Fault β} :
    Escapes (x >>= k) fault ↔ Escapes x fault ∨ ∃ a, x = .ok a ∧ Escapes (k a) fault := by
  cases x with
  | error f =>
    constructor
    · rintro ⟨h, hfault⟩
      cases h
      exact .inl ⟨rfl, hfault⟩
    · rintro (⟨h, hfault⟩ | ⟨a, ha, -⟩)
      · cases h
        exact ⟨rfl, hfault⟩
      · cases ha
  | ok a =>
    constructor
    · exact fun h => .inr ⟨a, rfl, h⟩
    · rintro (h | ⟨b, hb, h⟩)
      · cases h.1
      · cases hb
        exact h

/-- What is made of a result changes nothing in how there may be none. -/
theorem escapes_map_iff {x : Except Fault α} {g : α → β} :
    Escapes (x >>= fun a => pure (g a)) fault ↔ Escapes x fault := by
  rw [escapes_bind_iff]
  refine ⟨?_, .inl⟩
  rintro (h | ⟨a, -, h⟩)
  · exact h
  · exact absurd h escapes_pure

/-- Two computations, each of which fails with one and the same fault only, and what follows
them. -/
private theorem escapes_both_iff {x : Except Fault α} {y : Except Fault β}
    {k : α → β → Except Fault γ} {f : Fault} {P Q : Prop} (hf : f.isExpression = false)
    (hx : ∀ g, x = .error g ↔ P ∧ g = f) (hy : ∀ g, y = .error g ↔ Q ∧ g = f) :
    Escapes (do let a ← x; let b ← y; k a b) fault ↔ (P ∨ Q) ∧ fault = f ∨
      ∃ a b, x = .ok a ∧ y = .ok b ∧ Escapes (k a b) fault := by
  constructor
  · intro h
    rcases escapes_bind_iff.mp h with ⟨hx', -⟩ | ⟨a, ha, h⟩
    · obtain ⟨hP, rfl⟩ := (hx _).mp hx'
      exact .inl ⟨.inl hP, rfl⟩
    · rcases escapes_bind_iff.mp h with ⟨hy', -⟩ | ⟨b, hb, h⟩
      · obtain ⟨hQ, rfl⟩ := (hy _).mp hy'
        exact .inl ⟨.inr hQ, rfl⟩
      · exact .inr ⟨a, b, ha, hb, h⟩
  · rintro (⟨hPQ, rfl⟩ | ⟨a, b, ha, hb, h⟩)
    · refine escapes_bind_iff.mpr ?_
      -- whichever fails first, the fault is the same
      cases x with
      | error g => exact .inl ⟨(hx fault).mpr ⟨((hx g).mp rfl).1, rfl⟩, hf⟩
      | ok a =>
        have hP : ¬ P := fun hP => nomatch (hx fault).mpr ⟨hP, rfl⟩
        have hQ := hPQ.resolve_left hP
        exact .inr ⟨a, rfl, escapes_bind_iff.mpr (.inl ⟨(hy fault).mpr ⟨hQ, rfl⟩, hf⟩)⟩
    · exact escapes_bind_iff.mpr (.inr ⟨a, ha, escapes_bind_iff.mpr (.inr ⟨b, hb, h⟩)⟩)

end Escapes

/-! ### Numbers -/

namespace Number

open Binary64

/-- An integer that no double is near to. -/
def IsVast (n : Number) : Prop := ∃ k, n = int k ∧ overflow ≤ k.natAbs

/-- A double. -/
def IsReal (n : Number) : Prop := ∃ x, n = real x

/-- An integer that no double is near to and a double. -/
def Mismatched (m n : Number) : Prop := m.IsVast ∧ n.IsReal ∨ m.IsReal ∧ n.IsVast

private theorem toReal_eq_error_iff {n : Number} {fault : Fault} :
    n.toReal = .error fault ↔ n.IsVast ∧ fault = .integerTooLarge := by
  cases n with
  | real x => exact ⟨nofun, fun ⟨⟨k, hk, _⟩, _⟩ => nomatch hk⟩
  | int k =>
    have hvast : (int k).IsVast ↔ ofInt? k = none := by
      rw [ofInt?_eq_none_iff]
      simp [IsVast]
    rw [hvast, toReal]
    cases ofInt? k with
    | some x => simp
    | none => simp [eq_comm]

/-- The double near to an integer is finite. -/
theorem exists_form_of_toReal_int {j : Int} {x : Float} (h : (int j).toReal = .ok x) :
    ∃ p, form x = .finite p := by
  rw [toReal] at h
  split at h
  · next y hy =>
    cases h
    exact exists_form_of_ofInt? hy
  · cases h

/-- Only an integer that no double is near to cannot be converted to a double. -/
theorem escapes_toReal_iff {n : Number} {fault : Fault} :
    Escapes n.toReal fault ↔ n.IsVast ∧ fault = .integerTooLarge :=
  escapes_of_eq_error_iff rfl fun _ => toReal_eq_error_iff

private theorem not_isVast_real (x : Float) : ¬ (real x).IsVast := fun ⟨_, h, _⟩ => nomatch h

private theorem not_isReal_int (k : Int) : ¬ (int k).IsReal := fun ⟨_, h⟩ => nomatch h

private theorem mismatched_iff {m n : Number} (h : m.IsReal ∨ n.IsReal) :
    Mismatched m n ↔ m.IsVast ∨ n.IsVast := by
  cases m with
  | int j =>
    obtain ⟨y, rfl⟩ := h.resolve_left (not_isReal_int j)
    simp [Mismatched, not_isVast_real, IsReal]
  | real x => simp [Mismatched, not_isVast_real, IsReal]

/-- Two operands as doubles, and what is made of them. -/
private theorem escapes_toReals_iff {m n : Number} {k : Float → Float → Except Fault Number}
    {fault : Fault} : Escapes (do let x ← m.toReal; let y ← n.toReal; k x y) fault ↔
      (m.IsVast ∨ n.IsVast) ∧ fault = .integerTooLarge ∨
        ∃ x y, m.toReal = .ok x ∧ n.toReal = .ok y ∧ Escapes (k x y) fault :=
  escapes_both_iff rfl (fun _ => toReal_eq_error_iff) fun _ => toReal_eq_error_iff

/-- Two operands as doubles, of which a double is made. -/
private theorem escapes_rounded_iff {m n : Number} {rounded : Float → Float → Float}
    {fault : Fault} :
    Escapes (do let x ← m.toReal; let y ← n.toReal; return real (rounded x y)) fault ↔
      (m.IsVast ∨ n.IsVast) ∧ fault = .integerTooLarge := by
  rw [escapes_toReals_iff]
  simp

/-- An operation that is exact on integers strays only where the two kinds of numbers meet. -/
private theorem escapes_mixed_iff {exact : Int → Int → Int} {rounded : Float → Float → Float}
    {m n : Number} {fault : Fault} :
    Escapes (mixed exact rounded m n) fault ↔ Mismatched m n ∧ fault = .integerTooLarge := by
  cases m with
  | int j =>
    cases n with
    | int k => simp [mixed, Mismatched, not_isReal_int]
    | real y =>
      rw [mismatched_iff (.inr ⟨y, rfl⟩)]
      exact escapes_rounded_iff
  | real x =>
    rw [mismatched_iff (.inl ⟨x, rfl⟩)]
    exact escapes_rounded_iff

/-- What makes an operator stray on two numbers, and with which fault. -/
inductive Strays : BinaryOp → Number → Number → Fault → Prop where
  /-- A sum, a difference or a product of an integer that no double is near to and a double. -/
  | mixed {op : BinaryOp} {m n : Number} : op = .add ∨ op = .subtract ∨ op = .multiply →
      Mismatched m n → Strays op m n .integerTooLarge
  /-- A quotient of an integer that no double is near to and a double. -/
  | quotient {m n : Number} : n.equals (int 0) = false → Mismatched m n →
      Strays .divide m n .integerTooLarge
  /-- A quotient of such an integer and zero. -/
  | byZero {m n : Number} : n.equals (int 0) = true → m.IsVast →
      Strays .divide m n .integerTooLarge
  /-- A quotient of integers that lies beyond the doubles. -/
  | beyond {j k : Int} : k ≠ 0 → overflow * k.natAbs ≤ j.natAbs →
      Strays .divide (int j) (int k) .quotientTooLarge
  /-- A remainder with an integer that no double is near to. -/
  | remainder {m n : Number} : n.equals (int 0) = false → m.IsVast ∨ n.IsVast →
      Strays .modulo m n .integerTooLarge
  /-- A remainder of an infinity. -/
  | ofInfinity {x y : Float} {negative : Bool} {n : Number} : n.equals (int 0) = false →
      form x = .infinite negative → n.toReal = .ok y → form y ≠ .nan →
      Strays .modulo (real x) n .outsideDomain

variable {m n : Number} {fault : Fault}

private theorem equals_zero_iff {k : Int} : (int k).equals (int 0) = true ↔ k = 0 := by
  simp [equals, compare?]

private theorem IsVast.equals_zero (h : m.IsVast) : m.equals (int 0) = false := by
  obtain ⟨k, rfl, hk⟩ := h
  refine (Bool.not_eq_true _).mp (mt equals_zero_iff.mp ?_)
  have := overflow_pos
  omega

/-- Sums, differences and products. -/
private theorem escapes_mixed_iff_strays {op : BinaryOp} {exact : Int → Int → Int}
    {rounded : Float → Float → Float} (hop : op = .add ∨ op = .subtract ∨ op = .multiply) :
    Escapes (mixed exact rounded m n) fault ↔ Strays op m n fault := by
  rw [escapes_mixed_iff]
  constructor
  · rintro ⟨h, rfl⟩
    exact .mixed hop h
  · intro h
    cases h with
    | mixed _ h => exact ⟨h, rfl⟩
    | quotient | byZero | beyond | remainder | ofInfinity =>
      rcases hop with hop | hop | hop <;> cases hop

/-- The operators that stray on numbers. -/
private theorem Strays.mem {op : BinaryOp} (h : Strays op m n fault) :
    op ∈ [BinaryOp.add, .subtract, .multiply, .divide, .modulo] := by
  cases h with
  | mixed hop _ => rcases hop with rfl | rfl | rfl <;> decide
  | quotient | byZero | beyond | remainder | ofInfinity => decide

/-! The cases of a division, one by one. -/

private theorem divide_byZero (h : n.equals (int 0) = true) : m.divide n = divideByZero m n := by
  unfold divide
  rw [if_pos h]

/-- A quotient of integers escapes exactly if it is out of range. -/
private theorem escapes_divide_int_iff {j k : Int} (h : k ≠ 0) :
    Escapes ((int j).divide (int k)) fault ↔
      overflow * k.natAbs ≤ j.natAbs ∧ fault = .quotientTooLarge := by
  have hk : 0 < k.natAbs := Int.natAbs_pos.mpr h
  unfold divide
  rw [if_neg (mt equals_zero_iff.mp h), ← isInf_ofRatio_iff hk]
  dsimp only
  split
  · next hinf =>
    rw [escapes_error_iff rfl]
    exact (and_iff_right hinf).symm
  · next hinf => simp [hinf]

private theorem divide_real (h : n.equals (int 0) = false) (hreal : m.IsReal ∨ n.IsReal) :
    m.divide n = do let x ← m.toReal; let y ← n.toReal; return real (x / y) := by
  unfold divide
  rw [if_neg (ne_true_of_eq_false h)]
  split
  · next j k => exact absurd hreal (not_or.mpr ⟨not_isReal_int j, not_isReal_int k⟩)
  · rfl

private theorem isReal_or_ints (m n : Number) :
    (m.IsReal ∨ n.IsReal) ∨ ∃ j k, m = int j ∧ n = int k := by
  cases m with
  | real x => exact .inl (.inl ⟨x, rfl⟩)
  | int j =>
    cases n with
    | real y => exact .inl (.inr ⟨y, rfl⟩)
    | int k => exact .inr ⟨j, k, rfl, rfl⟩

/-- A fault escapes from a quotient exactly if the division strays. -/
private theorem escapes_divide_iff : Escapes (m.divide n) fault ↔ Strays .divide m n fault := by
  constructor
  · intro h
    cases hzero : n.equals (int 0) with
    | true =>
      rw [divide_byZero hzero, divideByZero] at h
      split at h
      · exact absurd h escapes_ok
      · obtain ⟨hvast, rfl⟩ := escapes_toReal_iff.mp (escapes_map_iff.mp h)
        exact .byZero hzero hvast
    | false =>
      rcases isReal_or_ints m n with hreal | ⟨j, k, rfl, rfl⟩
      · rw [divide_real hzero hreal] at h
        obtain ⟨hvast, rfl⟩ := escapes_rounded_iff.mp h
        exact .quotient hzero ((mismatched_iff hreal).mpr hvast)
      · have hk : k ≠ 0 := mt equals_zero_iff.mpr (ne_true_of_eq_false hzero)
        obtain ⟨hover, rfl⟩ := (escapes_divide_int_iff hk).mp h
        exact .beyond hk hover
  · intro h
    cases h with
    | mixed hop _ => rcases hop with hop | hop | hop <;> cases hop
    | quotient hzero hmis =>
      have hreal : m.IsReal ∨ n.IsReal := hmis.elim (fun h => .inr h.2) fun h => .inl h.1
      rw [divide_real hzero hreal]
      exact escapes_rounded_iff.mpr ⟨(mismatched_iff hreal).mp hmis, rfl⟩
    | byZero hzero hvast =>
      rw [divide_byZero hzero, divideByZero, if_neg (ne_true_of_eq_false hvast.equals_zero)]
      exact escapes_map_iff.mpr (escapes_toReal_iff.mpr ⟨hvast, rfl⟩)
    | beyond hk hover => exact (escapes_divide_int_iff hk).mpr ⟨hover, rfl⟩

/-- A remainder of doubles fails exactly if the dividend is infinite and the divisor is a number. -/
private theorem remainder_eq_error_iff {x y : Float} :
    Number.remainder x y = .error fault ↔
      (∃ negative, form x = .infinite negative) ∧ form y ≠ .nan ∧ fault = .outsideDomain := by
  rw [Number.remainder]
  cases hx : form x with
  | nan => simp
  | infinite negative =>
    cases hy : form y <;> simp [eq_comm]
  | finite p => cases hy : form y <;> simp

/-- A finite double is cut to an integer. -/
theorem truncate_eq_ok {x : Float} {p : Parts} (h : form x = .finite p) :
    (real x).truncate = .ok p.truncate := by
  rw [truncate, h]

/-! The cases of a remainder, one by one. -/

private theorem modulo_byZero (h : n.equals (int 0) = true) : m.modulo n = .ok (real nan) := by
  unfold modulo
  rw [if_pos h]

/-- A remainder of integers is finite, and so an integer again. -/
private theorem escapes_modulo_int_iff {j k : Int} (h : k ≠ 0) :
    Escapes ((int j).modulo (int k)) fault ↔
      ((int j).IsVast ∨ (int k).IsVast) ∧ fault = .integerTooLarge := by
  unfold modulo
  rw [if_neg (mt equals_zero_iff.mp h), escapes_toReals_iff]
  refine or_iff_left ?_
  rintro ⟨x, y, hx, hy, hescapes⟩
  obtain ⟨p, hp⟩ := exists_form_of_toReal_int hx
  obtain ⟨q, hq⟩ := exists_form_of_toReal_int hy
  -- so nothing is lost on the way back to an integer
  obtain ⟨r, hr⟩ := exists_form_remainder hp q
  have hremainder : Number.remainder x y = .ok (p.remainder q) := by rw [Number.remainder, hp, hq]
  rw [hremainder] at hescapes
  obtain ⟨htruncate, -⟩ := escapes_map_iff.mp hescapes
  cases (truncate_eq_ok hr).symm.trans htruncate

private theorem modulo_real (h : n.equals (int 0) = false) (hreal : m.IsReal ∨ n.IsReal) :
    m.modulo n = do
      let x ← m.toReal
      let y ← n.toReal
      let r ← Number.remainder x y
      return real r := by
  unfold modulo
  rw [if_neg (ne_true_of_eq_false h)]
  split
  · next j k => exact absurd hreal (not_or.mpr ⟨not_isReal_int j, not_isReal_int k⟩)
  · rfl

/-- A fault escapes from a remainder exactly if the operator strays. -/
private theorem escapes_modulo_iff : Escapes (m.modulo n) fault ↔ Strays .modulo m n fault := by
  constructor
  · intro h
    cases hzero : n.equals (int 0) with
    | true =>
      rw [modulo_byZero hzero] at h
      exact absurd h escapes_ok
    | false =>
      rcases isReal_or_ints m n with hreal | ⟨j, k, rfl, rfl⟩
      · rw [modulo_real hzero hreal, escapes_toReals_iff] at h
        rcases h with ⟨hvast, rfl⟩ | ⟨x, y, hx, hy, h⟩
        · exact .remainder hzero hvast
        · obtain ⟨⟨negative, hnegative⟩, hnan, rfl⟩ :=
            remainder_eq_error_iff.mp (escapes_map_iff.mp h).1
          -- an infinity is no integer
          cases m with
          | int j =>
            obtain ⟨p, hp⟩ := exists_form_of_toReal_int hx
            cases hnegative.symm.trans hp
          | real z =>
            cases hx
            exact .ofInfinity hzero hnegative hy hnan
      · have hk : k ≠ 0 := mt equals_zero_iff.mpr (ne_true_of_eq_false hzero)
        obtain ⟨hvast, rfl⟩ := (escapes_modulo_int_iff hk).mp h
        exact .remainder hzero hvast
  · intro h
    cases h with
    | mixed hop _ => rcases hop with hop | hop | hop <;> cases hop
    | remainder hzero hvast =>
      rcases isReal_or_ints m n with hreal | ⟨j, k, rfl, rfl⟩
      · rw [modulo_real hzero hreal]
        exact escapes_toReals_iff.mpr (.inl ⟨hvast, rfl⟩)
      · have hk : k ≠ 0 := mt equals_zero_iff.mpr (ne_true_of_eq_false hzero)
        exact (escapes_modulo_int_iff hk).mpr ⟨hvast, rfl⟩
    | @ofInfinity x y negative n hzero hx hy hnan =>
      rw [modulo_real hzero (.inl ⟨x, rfl⟩)]
      refine escapes_toReals_iff.mpr (.inr ⟨x, y, rfl, hy, escapes_map_iff.mpr ⟨?_, rfl⟩⟩)
      exact remainder_eq_error_iff.mpr ⟨⟨negative, hx⟩, hnan, rfl⟩

end Number

/-! ### Values -/

namespace Value

variable {a b v : Value} {fault : Fault}

/-- An integer with too many digits to be written. -/
def IsUnwritable (v : Value) : Prop := ∃ k, v = int k ∧ Number.writeLimit ≤ k.natAbs

private theorem intText_eq_error_iff {k : Int} :
    Number.intText k = .error fault ↔ (int k).IsUnwritable ∧ fault = .tooManyDigits none := by
  have hk : (int k).IsUnwritable ↔ Number.writeLimit ≤ k.natAbs := by simp [IsUnwritable]
  rw [hk, Number.intText]
  split
  · next h => simp [h, eq_comm]
  · next h => simp [h]

private theorem display_eq_error_iff :
    v.display = .error fault ↔ v.IsUnwritable ∧ fault = .tooManyDigits none := by
  cases v with
  | number n =>
    cases n with
    | int k => rw [display, Number.display, intText_eq_error_iff]
    | real x => simp [display, Number.display, IsUnwritable]
  | null | bool _ | text _ | array _ => simp [display, IsUnwritable]

/-- A value has no plain text exactly if it is an integer with too many digits. -/
theorem plain_eq_error_iff :
    v.plain = .error fault ↔ v.IsUnwritable ∧ fault = .tooManyDigits none := by
  cases v with
  | number n =>
    cases n with
    | int k => rw [plain, Number.text, intText_eq_error_iff]
    | real x => simp [plain, Number.text, IsUnwritable]
  | null | bool _ | text _ | array _ => simp [plain, IsUnwritable]

/-- Any other value has a plain text. -/
theorem exists_plain (h : ¬ v.IsUnwritable) : ∃ t, v.plain = .ok t := by
  cases ht : v.plain with
  | ok t => exact ⟨t, rfl⟩
  | error f => exact absurd (plain_eq_error_iff.mp ht).1 h

/-- A value cannot be shown exactly if it is an integer with too many digits. -/
theorem escapes_display_iff :
    Escapes v.display fault ↔ v.IsUnwritable ∧ fault = .tooManyDigits none :=
  escapes_of_eq_error_iff rfl fun _ => display_eq_error_iff

/-- That a value has no plain text is no problem of the expression. -/
theorem escapes_plain_iff :
    Escapes v.plain fault ↔ v.IsUnwritable ∧ fault = .tooManyDigits none :=
  escapes_of_eq_error_iff rfl fun _ => plain_eq_error_iff

/-- Two values as they are shown, and what is made of them. -/
private theorem escapes_displays_iff {α : Type} {k : Text → Text → Except Fault α}
    (hk : ∀ s t, ¬ Escapes (k s t) fault) :
    Escapes (do let s ← a.display; let t ← b.display; k s t) fault ↔
      (a.IsUnwritable ∨ b.IsUnwritable) ∧ fault = .tooManyDigits none := by
  rw [escapes_both_iff rfl (fun _ => display_eq_error_iff) fun _ => display_eq_error_iff]
  simp [hk]

/-- Two values cannot be joined exactly if one of them cannot be written. -/
theorem escapes_concatenate_iff : Escapes (a.concatenate b) fault ↔
    (a.IsUnwritable ∨ b.IsUnwritable) ∧ fault = .tooManyDigits none :=
  escapes_displays_iff fun _ _ => escapes_pure

/-- A fault escapes from a comparison exactly if the values cannot be compared and one of them
cannot be written. -/
private theorem escapes_order_iff : Escapes (a.order b) fault ↔
    a.compare? b = none ∧ (a.IsUnwritable ∨ b.IsUnwritable) ∧ fault = .tooManyDigits none := by
  rw [order]
  cases a.compare? b with
  | some o => simp
  | none =>
    simp only [true_and]
    exact escapes_displays_iff fun _ _ => escapes_ofProblem

/-- What stands for no number can be shown, so that it is a problem of the expression. -/
theorem requireNumber_cases (operation : Text) (v : Value) :
    (∃ n, v.toNumber? = some n ∧ v.requireNumber operation = .ok n) ∨
      v.toNumber? = none ∧
        ∃ problem, v.requireNumber operation = .error (.ofProblem problem) := by
  cases v with
  | number n => exact .inl ⟨n, rfl, rfl⟩
  | bool b => exact .inl ⟨_, rfl, rfl⟩
  | null | text _ | array _ => exact .inr ⟨rfl, _, rfl⟩

/-- An operand that has to be a number, and what is made of it. -/
private theorem escapes_requireNumber_iff {α : Type} {operation : Text}
    {k : Number → Except Fault α} :
    Escapes (v.requireNumber operation >>= k) fault ↔
      ∃ n, v.toNumber? = some n ∧ Escapes (k n) fault := by
  rcases requireNumber_cases operation v with ⟨n, hn, hv⟩ | ⟨hn, problem, hv⟩
  · rw [hv, hn, escapes_bind_iff]
    simp
  · rw [hv, hn, escapes_bind_iff]
    simp

end Value

/-! ### Operators -/

namespace BinaryOp

variable {op : BinaryOp} {a b : Value} {fault : Fault}

/-- An operator that puts its operands in order. -/
def isOrder : BinaryOp → Bool
  | less | lessEqual | greater | greaterEqual => true
  | _ => false

/-- What makes an operator stray on two values, and with which fault. -/
inductive Strays : BinaryOp → Value → Value → Fault → Prop where
  /-- Two numbers on which it strays. -/
  | numbers {op : BinaryOp} {a b : Value} {m n : Number} {fault : Fault} :
      a.toNumber? = some m → b.toNumber? = some n → Number.Strays op m n fault →
      Strays op a b fault
  /-- A text to be joined with an integer that cannot be written. -/
  | joined {a b : Value} : a.isText = true ∨ b.isText = true → a.IsUnwritable ∨ b.IsUnwritable →
      Strays .add a b (.tooManyDigits none)
  /-- An integer that cannot be written, in the complaint that it has no order. -/
  | ordered {op : BinaryOp} {a b : Value} : op.isOrder = true → a.compare? b = none →
      a.IsUnwritable ∨ b.IsUnwritable → Strays op a b (.tooManyDigits none)

/-- An operator strays with a stray fault. -/
theorem Strays.isStray (h : op.Strays a b fault) : fault.isStray = true := by
  cases h with
  | numbers _ _ h => cases h <;> rfl
  | joined => rfl
  | ordered => rfl

private theorem escapes_onNumbers_iff {operation : Text}
    {f : Number → Number → Except Fault Number} :
    Escapes (onNumbers operation f a b) fault ↔
      ∃ m n, a.toNumber? = some m ∧ b.toNumber? = some n ∧ Escapes (f m n) fault := by
  rw [onNumbers, Value.escapes_requireNumber_iff]
  constructor
  · rintro ⟨m, hm, h⟩
    obtain ⟨n, hn, h⟩ := Value.escapes_requireNumber_iff.mp h
    exact ⟨m, n, hm, hn, escapes_map_iff.mp h⟩
  · rintro ⟨m, n, hm, hn, h⟩
    exact ⟨m, hm, Value.escapes_requireNumber_iff.mpr ⟨n, hn, escapes_map_iff.mpr h⟩⟩

/-- An operator on numbers only strays as it does on numbers. -/
private theorem escapes_arithmetic_iff {operation : Text}
    {f : Number → Number → Except Fault Number}
    (hf : ∀ m n, Escapes (f m n) fault ↔ Number.Strays op m n fault) (hadd : op ≠ .add)
    (horder : op.isOrder = false) :
    Escapes (onNumbers operation f a b) fault ↔ op.Strays a b fault := by
  rw [escapes_onNumbers_iff]
  constructor
  · rintro ⟨m, n, hm, hn, h⟩
    exact .numbers hm hn ((hf m n).mp h)
  · intro h
    cases h with
    | numbers hm hn h => exact ⟨_, _, hm, hn, (hf _ _).mpr h⟩
    | joined => exact absurd rfl hadd
    | ordered hop => exact absurd hop (ne_true_of_eq_false horder)

private theorem escapes_add_iff : Escapes (add.apply a b) fault ↔ Strays add a b fault := by
  rw [apply]
  split
  · next htext =>
    rw [Value.escapes_concatenate_iff]
    rw [Bool.or_eq_true] at htext
    constructor
    · rintro ⟨h, rfl⟩
      exact .joined htext h
    · intro h
      cases h with
      | joined _ h => exact ⟨h, rfl⟩
      | numbers hm hn _ =>
        -- a text is no number
        cases a <;> cases b <;> cases hm <;> cases hn <;> simp [Value.isText] at htext
      | ordered hop => cases hop
  · next htext =>
    rw [Bool.or_eq_true] at htext
    rw [escapes_onNumbers_iff]
    constructor
    · rintro ⟨m, n, hm, hn, h⟩
      exact .numbers hm hn ((Number.escapes_mixed_iff_strays (.inl rfl)).mp h)
    · intro h
      cases h with
      | joined h _ => exact absurd h htext
      | numbers hm hn h =>
        exact ⟨_, _, hm, hn, (Number.escapes_mixed_iff_strays (.inl rfl)).mpr h⟩
      | ordered hop => cases hop

private theorem escapes_compare_iff {test : Option Ordering → Bool} (hop : op.isOrder = true) :
    Escapes (do let o ← a.order b; return Value.bool (test o)) fault ↔ op.Strays a b fault := by
  rw [escapes_map_iff, Value.escapes_order_iff]
  constructor
  · rintro ⟨hnone, h, rfl⟩
    exact .ordered hop hnone h
  · intro h
    cases h with
    | ordered _ hnone h => exact ⟨hnone, h, rfl⟩
    | joined => cases hop
    | numbers _ _ h =>
      have hmem := h.mem
      cases op <;> simp [isOrder] at hop hmem

/-- An operator that is not named in the ways to stray. -/
private theorem not_strays (hmem : op ∉ [add, subtract, multiply, divide, modulo])
    (horder : op.isOrder = false) : ¬ op.Strays a b fault := by
  intro h
  cases h with
  | numbers _ _ h => exact hmem h.mem
  | joined => simp at hmem
  | ordered hop => exact absurd hop (ne_true_of_eq_false horder)

/-- **A fault escapes from an operator exactly if the operator strays** on its operands. -/
theorem escapes_apply_iff : Escapes (op.apply a b) fault ↔ op.Strays a b fault := by
  cases op with
  | add => exact escapes_add_iff
  | subtract =>
    exact escapes_arithmetic_iff
      (fun _ _ => Number.escapes_mixed_iff_strays (.inr (.inl rfl))) nofun rfl
  | multiply =>
    exact escapes_arithmetic_iff
      (fun _ _ => Number.escapes_mixed_iff_strays (.inr (.inr rfl))) nofun rfl
  | divide => exact escapes_arithmetic_iff (fun _ _ => Number.escapes_divide_iff) nofun rfl
  | modulo => exact escapes_arithmetic_iff (fun _ _ => Number.escapes_modulo_iff) nofun rfl
  | power =>
    refine iff_of_false (fun h => ?_) (not_strays (by decide) rfl)
    obtain ⟨m, n, -, -, h⟩ := escapes_onNumbers_iff.mp h
    exact escapes_ok h
  | equal => exact iff_of_false escapes_ok (not_strays (by decide) rfl)
  | unequal => exact iff_of_false escapes_ok (not_strays (by decide) rfl)
  | less | lessEqual | greater | greaterEqual => exact escapes_compare_iff rfl

end BinaryOp

/-- No fault escapes from a sign or a negation. -/
theorem UnaryOp.not_escapes_apply {op : UnaryOp} {v : Value} {fault : Fault} :
    ¬ Escapes (op.apply v) fault := by
  cases op with
  | not => exact escapes_ok
  | negate =>
    intro h
    obtain ⟨n, -, h⟩ := Value.escapes_requireNumber_iff.mp h
    exact escapes_pure h
  | keep =>
    intro h
    obtain ⟨n, -, h⟩ := Value.escapes_requireNumber_iff.mp h
    exact escapes_pure h

end Pseudocode
