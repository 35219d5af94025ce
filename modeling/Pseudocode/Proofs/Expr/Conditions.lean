import Pseudocode.Proofs.Expr.Calls
import Pseudocode.Proofs.Expr.Recognition

/-!
# Conditions

A condition that is malformed, or whose operands do not fit, does not hold. That leaves the faults
which are no problems of an expression, and these leave the condition too. `Expr.BreaksOff` says
where in an expression such a fault comes up, and `escapes_eval_iff` that it comes up there and
nowhere else.

So a condition has an answer or ends in one of two kinds of faults (`condition_ends`): an undefined
name or an index outside its array, or a stray fault of an operation below the language. The second
kind exists: `condition_misplaced`.
-/

namespace Pseudocode

/-! ### The store -/

namespace Store

/-- Why there is no element of an array at an index, as far as that is no problem of the
expression. -/
inductive Misses (s : Store) (name : Text) : Value → Fault → Prop where
  /-- There is no array of the name. -/
  | noArray {index : Value} : (∀ v xs, s.get? name = some v → v.value ≠ .array xs) →
      Misses s name index (.undefinedArray name)
  /-- The index is an integer that no double is near to. -/
  | vast {v : Variable} {xs : Array Float} {n : Number} : s.get? name = some v →
      v.value = .array xs → n.IsVast → Misses s name (.number n) .integerTooLarge
  /-- The index is a whole number outside the array. -/
  | outside {v : Variable} {xs : Array Float} {index : Value} {i : Int} : s.get? name = some v →
      v.value = .array xs → wholeIndex v.name index = .ok i → ¬ (0 ≤ i ∧ i < xs.size) →
      Misses s name index (.indexOutOfRange v.name i xs.size)

variable {s : Store} {name : Text} {index : Value} {fault : Fault}

/-- A variable is missing exactly if there is none under its name. -/
private theorem escapes_lookup_iff : Escapes (s.lookup name false) fault ↔
    s.get? name = none ∧ fault = .undefinedVariable name false := by
  rw [lookup]
  cases s.get? name with
  | some v => simp
  | none =>
    rw [escapes_error_iff rfl]
    exact (and_iff_right rfl).symm

private theorem escapes_arrayOf_iff : Escapes (s.arrayOf name) fault ↔
    (∀ v xs, s.get? name = some v → v.value ≠ .array xs) ∧ fault = .undefinedArray name := by
  have hsome {v : Variable} {xs : Array Float} (h : s.arrayOf name = .ok (v, xs)) :
      ¬ ∀ v xs, s.get? name = some v → v.value ≠ .array xs := by
    intro hnone
    obtain ⟨hv, hxs⟩ := arrayOf_eq_ok_iff.mp h
    exact hnone v xs hv hxs
  have herror {f : Fault} (h : s.arrayOf name = .error f) : f = .undefinedArray name := by
    rw [arrayOf] at h
    split at h
    · split at h
      · cases h
      · exact (Except.error.inj h).symm
    · exact (Except.error.inj h).symm
  rcases h : s.arrayOf name with f | ⟨v, xs⟩
  · obtain rfl := herror h
    rw [escapes_error_iff rfl]
    refine (and_iff_right fun v xs hv hxs => ?_).symm
    cases h.symm.trans (arrayOf_eq_ok_iff.mpr ⟨hv, hxs⟩)
  · exact iff_of_false escapes_ok fun hnone => hsome h hnone.1

/-- To refuse an index that can be written is a problem of the expression. -/
private theorem not_escapes_refuse {array : Text} (h : ¬ index.IsUnwritable) :
    ¬ Escapes (do
      let shown ← index.literal
      throw (.ofProblem (.invalidIndex shown array)) : Except Fault Int) fault := by
  have hplain : ∃ shown, index.plain = .ok shown := Value.exists_plain h
  have hliteral : ∃ shown, index.literal = .ok shown := by
    cases index with
    | text t => exact ⟨_, rfl⟩
    | null | bool _ | number _ | array _ => exact hplain
  obtain ⟨shown, hshown⟩ := hliteral
  rw [hshown]
  exact escapes_ofProblem

private theorem escapes_wholeIndex_iff {array : Text} : Escapes (wholeIndex array index) fault ↔
    ∃ n, index = .number n ∧ n.IsVast ∧ fault = .integerTooLarge := by
  cases index with
  | number n =>
    have hvast : (∃ m, Value.number n = .number m ∧ m.IsVast ∧ fault = .integerTooLarge) ↔
        n.IsVast ∧ fault = .integerTooLarge := by simp
    rw [hvast, wholeIndex, escapes_bind_iff, Number.escapes_toReal_iff]
    refine or_iff_left ?_
    rintro ⟨x, hx, h⟩
    -- an integer with a double near to it is whole, and a double can be written in any case
    cases n with
    | int k =>
      obtain ⟨p, hp⟩ := Number.exists_form_of_toReal_int hx
      have hself : (Number.int k).equals (.int k) = true := by simp [Number.equals, Number.compare?]
      rw [hp] at h
      change Escapes (if (Number.int k).equals (.int k) then pure k else _) fault at h
      rw [if_pos hself] at h
      exact escapes_pure h
    | real y =>
      have hwritable : ¬ (Value.real y).IsUnwritable := by
        rintro ⟨k, hk, -⟩
        cases hk
      have hrefuse := @not_escapes_refuse (.real y) fault array hwritable
      split at h
      · next p hp =>
        cases hx
        rcases escapes_bind_iff.mp h with h | ⟨i, -, h⟩
        · rw [Number.truncate_eq_ok hp] at h
          exact escapes_ok h
        · split at h
          · exact escapes_pure h
          · exact hrefuse h
      · exact hrefuse h
  | null | bool _ | text _ | array _ =>
    refine iff_of_false (not_escapes_refuse ?_) ?_
    · rintro ⟨k, hk, -⟩
      cases hk
    · rintro ⟨n, hn, -⟩
      cases hn

/-- A fault escapes from an index exactly if it is an integer that no double is near to, or out of
range. -/
private theorem escapes_position_iff {array : Text} {size : Nat} :
    Escapes (position array size index) fault ↔
      (∃ n, index = .number n ∧ n.IsVast ∧ fault = .integerTooLarge) ∨
      ∃ i, wholeIndex array index = .ok i ∧ ¬ (0 ≤ i ∧ i < size) ∧
        fault = .indexOutOfRange array i size := by
  rw [position, escapes_bind_iff, escapes_wholeIndex_iff]
  refine or_congr_right (exists_congr fun i => and_congr_right fun _ => ?_)
  split
  · next h => exact iff_of_false escapes_pure fun h' => h'.1 h
  · next h => exact (escapes_error_iff rfl).trans (and_iff_right h).symm

private theorem escapes_getElement_iff : Escapes (s.getElement name index) fault ↔
    s.Misses name index fault := by
  rw [getElement, escapes_bind_iff, escapes_arrayOf_iff]
  constructor
  · rintro (⟨hnone, rfl⟩ | ⟨⟨v, xs⟩, hv, h⟩)
    · exact .noArray hnone
    · obtain ⟨hv, hxs⟩ := arrayOf_eq_ok_iff.mp hv
      have h : Escapes (position v.name xs.size index) fault := escapes_map_iff.mp h
      rcases escapes_position_iff.mp h with ⟨n, rfl, hn, rfl⟩ | ⟨i, hi, hrange, rfl⟩
      · exact .vast hv hxs hn
      · exact .outside hv hxs hi hrange
  · intro h
    cases h with
    | noArray hnone => exact .inl ⟨hnone, rfl⟩
    | vast hv hxs hn =>
      refine .inr ⟨_, arrayOf_eq_ok_iff.mpr ⟨hv, hxs⟩, escapes_map_iff.mpr ?_⟩
      exact escapes_position_iff.mpr (.inl ⟨_, rfl, hn, rfl⟩)
    | outside hv hxs hi hrange =>
      refine .inr ⟨_, arrayOf_eq_ok_iff.mpr ⟨hv, hxs⟩, escapes_map_iff.mpr ?_⟩
      exact escapes_position_iff.mpr (.inr ⟨_, hi, hrange, rfl⟩)

private theorem Misses.kind (h : s.Misses name index fault) :
    fault.isUndefined = true ∨ fault.isStray = true := by
  cases h with
  | noArray => exact .inl rfl
  | vast => exact .inr rfl
  | outside => exact .inl rfl

end Store

/-! ### Expressions -/

/-- The truth value after which the right operand is needed. -/
def LogicOp.pending : LogicOp → Bool
  | .and => true
  | .or => false

namespace Expr

mutual

/-- Where the evaluation of an expression ends with a fault that is no problem of the expression.
The evaluation goes on from the given progress. -/
inductive BreaksOff (scope : Scope) : Expr → Progress → Fault → Prop where
  | undefined {name : Text} {p : Progress} : scope.store.get? name = none →
      BreaksOff scope (.variable name) p (.undefinedVariable name false)
  | index {array : Text} {index : Expr} {p : Progress} {fault : Fault} :
      BreaksOff scope index p fault → BreaksOff scope (.element array index) p fault
  | element {array : Text} {index : Expr} {p q : Progress} {v : Value} {fault : Fault} :
      index.eval.outcome scope p = (.ok v, q) → scope.store.Misses array v fault →
      BreaksOff scope (.element array index) p fault
  | operand {op : UnaryOp} {operand : Expr} {p : Progress} {fault : Fault} :
      BreaksOff scope operand p fault → BreaksOff scope (.unary op operand) p fault
  | left {op : BinaryOp} {left right : Expr} {p : Progress} {fault : Fault} :
      BreaksOff scope left p fault → BreaksOff scope (.binary op left right) p fault
  | right {op : BinaryOp} {left right : Expr} {p q : Progress} {a : Value} {fault : Fault} :
      left.eval.outcome scope p = (.ok a, q) → BreaksOff scope right q fault →
      BreaksOff scope (.binary op left right) p fault
  | operation {op : BinaryOp} {left right : Expr} {p q r : Progress} {a b : Value}
      {fault : Fault} : left.eval.outcome scope p = (.ok a, q) →
      right.eval.outcome scope q = (.ok b, r) → op.Strays a b fault →
      BreaksOff scope (.binary op left right) p fault
  | decided {op : LogicOp} {left right : Expr} {p : Progress} {fault : Fault} :
      BreaksOff scope left p fault → BreaksOff scope (.logic op left right) p fault
  | pending {op : LogicOp} {left right : Expr} {p q : Progress} {a : Value} {fault : Fault} :
      left.eval.outcome scope p = (.ok a, q) → a.isTrue = op.pending →
      BreaksOff scope right q fault → BreaksOff scope (.logic op left right) p fault
  | argument {function : Text} {f : Builtin} {arguments : List Expr} {p : Progress}
      {fault : Fault} : Builtin.ofName? function = some f → arguments.length = f.arity →
      ListBreaksOff scope arguments p fault → BreaksOff scope (.call function arguments) p fault
  | call {function : Text} {f : Builtin} {arguments : List Expr} {values : List Value}
      {p q : Progress} {fault : Fault} : Builtin.ofName? function = some f →
      arguments.length = f.arity → (evalAll arguments).outcome scope p = (.ok values, q) →
      f.Strays values fault → BreaksOff scope (.call function arguments) p fault

/-- Where the evaluation of expressions, from left to right, ends with such a fault. -/
inductive ListBreaksOff (scope : Scope) : List Expr → Progress → Fault → Prop where
  | head {e : Expr} {rest : List Expr} {p : Progress} {fault : Fault} :
      BreaksOff scope e p fault → ListBreaksOff scope (e :: rest) p fault
  | tail {e : Expr} {rest : List Expr} {p q : Progress} {v : Value} {fault : Fault} :
      e.eval.outcome scope p = (.ok v, q) → ListBreaksOff scope rest q fault →
      ListBreaksOff scope (e :: rest) p fault

end

variable {scope : Scope}

mutual

/-- Such a fault is of one of two kinds. -/
private theorem BreaksOff.kind {e : Expr} {p : Progress} {fault : Fault} :
    BreaksOff scope e p fault → fault.isUndefined = true ∨ fault.isStray = true
  | .undefined _ => .inl rfl
  | .index h => h.kind
  | .element _ h => h.kind
  | .operand h => h.kind
  | .left h => h.kind
  | .right _ h => h.kind
  | .operation _ _ h => .inr h.isStray
  | .decided h => h.kind
  | .pending _ _ h => h.kind
  | .argument _ _ h => h.kind
  | .call _ _ _ h => .inr h.isStray

private theorem ListBreaksOff.kind {es : List Expr} {p : Progress} {fault : Fault} :
    ListBreaksOff scope es p fault → fault.isUndefined = true ∨ fault.isStray = true
  | .head h => h.kind
  | .tail _ h => h.kind

end

open Eval

/-! What is evaluated for an expression, in terms of its parts. -/

/-- A variable is looked up, and a missing one is a fault. -/
theorem eval_variable (name : Text) : (Expr.variable name).eval =
    read >>= fun scope => Eval.ofExcept (scope.store.lookup name false) >>= fun v =>
      pure v.value := rfl

private theorem eval_element (array : Text) (index : Expr) : (Expr.element array index).eval =
    index.eval >>= fun i => read >>= fun scope =>
      Eval.ofExcept (scope.store.getElement array i) := rfl

private theorem eval_unary (op : UnaryOp) (operand : Expr) : (Expr.unary op operand).eval =
    operand.eval >>= fun v => Eval.ofExcept (op.apply v) := rfl

private theorem eval_binary (op : BinaryOp) (left right : Expr) : (Expr.binary op left right).eval =
    left.eval >>= fun a => right.eval >>= fun b => Eval.ofExcept (op.apply a b) := rfl

/-- Both logical operators at once. -/
theorem eval_logic (op : LogicOp) (left right : Expr) : (Expr.logic op left right).eval = do
    let a ← left.eval
    if a.isTrue = op.pending then return .bool (← right.eval).isTrue
    else return .bool (!op.pending) := by
  cases op with
  | and => rfl
  | or =>
    refine bind_congr fun a => ?_
    cases a.isTrue <;> rfl

/-! One lemma for each constructor says where an expression breaks off, given where its parts do. -/

section Steps

variable {p : Progress} {fault : Fault}

private theorem escapes_variable_iff {name : Text} :
    Escapes ((Expr.variable name).eval.outcome scope p).1 fault ↔
      BreaksOff scope (.variable name) p fault := by
  rw [eval_variable, outcome_read_bind, escapes_outcome_map_iff, escapes_outcome_ofExcept_iff,
    Store.escapes_lookup_iff]
  constructor
  · rintro ⟨hnone, rfl⟩
    exact .undefined hnone
  · intro h
    cases h with
    | undefined hnone => exact ⟨hnone, rfl⟩

private theorem escapes_element_iff {array : Text} {index : Expr}
    (hindex : Escapes (index.eval.outcome scope p).1 fault ↔ index.BreaksOff scope p fault) :
    Escapes ((Expr.element array index).eval.outcome scope p).1 fault ↔
      BreaksOff scope (.element array index) p fault := by
  rw [eval_element, escapes_outcome_bind_iff, hindex]
  constructor
  · rintro (h | ⟨v, q, hv, h⟩)
    · exact .index h
    · rw [outcome_read_bind, escapes_outcome_ofExcept_iff] at h
      exact .element hv (Store.escapes_getElement_iff.mp h)
  · intro h
    cases h with
    | index h => exact .inl h
    | element hv h =>
      refine .inr ⟨_, _, hv, ?_⟩
      rw [outcome_read_bind, escapes_outcome_ofExcept_iff]
      exact Store.escapes_getElement_iff.mpr h

private theorem escapes_unary_iff {op : UnaryOp} {operand : Expr}
    (hoperand : Escapes (operand.eval.outcome scope p).1 fault ↔ operand.BreaksOff scope p fault) :
    Escapes ((Expr.unary op operand).eval.outcome scope p).1 fault ↔
      BreaksOff scope (.unary op operand) p fault := by
  rw [eval_unary, escapes_outcome_bind_iff, hoperand]
  constructor
  · rintro (h | ⟨v, q, -, h⟩)
    · exact .operand h
    · exact absurd (escapes_outcome_ofExcept_iff.mp h) UnaryOp.not_escapes_apply
  · intro h
    cases h with
    | operand h => exact .inl h

private theorem escapes_binary_iff {op : BinaryOp} {left right : Expr}
    (hleft : Escapes (left.eval.outcome scope p).1 fault ↔ left.BreaksOff scope p fault)
    (hright : ∀ q, Escapes (right.eval.outcome scope q).1 fault ↔ right.BreaksOff scope q fault) :
    Escapes ((Expr.binary op left right).eval.outcome scope p).1 fault ↔
      BreaksOff scope (.binary op left right) p fault := by
  rw [eval_binary, escapes_outcome_bind_iff, hleft]
  constructor
  · rintro (h | ⟨a, q, ha, h⟩)
    · exact .left h
    · rcases escapes_outcome_bind_iff.mp h with h | ⟨b, r, hb, h⟩
      · exact .right ha ((hright q).mp h)
      · rw [escapes_outcome_ofExcept_iff] at h
        exact .operation ha hb (BinaryOp.escapes_apply_iff.mp h)
  · intro h
    cases h with
    | left h => exact .inl h
    | right ha h =>
      exact .inr ⟨_, _, ha, escapes_outcome_bind_iff.mpr (.inl ((hright _).mpr h))⟩
    | operation ha hb h =>
      refine .inr ⟨_, _, ha, escapes_outcome_bind_iff.mpr (.inr ⟨_, _, hb, ?_⟩)⟩
      rw [escapes_outcome_ofExcept_iff]
      exact BinaryOp.escapes_apply_iff.mpr h

private theorem escapes_logic_iff {op : LogicOp} {left right : Expr}
    (hleft : Escapes (left.eval.outcome scope p).1 fault ↔ left.BreaksOff scope p fault)
    (hright : ∀ q, Escapes (right.eval.outcome scope q).1 fault ↔ right.BreaksOff scope q fault) :
    Escapes ((Expr.logic op left right).eval.outcome scope p).1 fault ↔
      BreaksOff scope (.logic op left right) p fault := by
  rw [eval_logic, escapes_outcome_bind_iff, hleft]
  constructor
  · rintro (h | ⟨a, q, ha, h⟩)
    · exact .decided h
    · split at h
      · next hneeded => exact .pending ha hneeded ((hright q).mp (escapes_outcome_map_iff.mp h))
      · exact absurd h escapes_ok
  · intro h
    cases h with
    | decided h => exact .inl h
    | pending ha hneeded h =>
      refine .inr ⟨_, _, ha, ?_⟩
      rw [if_pos hneeded, escapes_outcome_map_iff]
      exact (hright _).mpr h

/-- A call evaluates its arguments in order and then applies the function. -/
theorem eval_call {function : Text} {f : Builtin} {arguments : List Expr}
    (hf : Builtin.ofName? function = some f) (hlength : arguments.length = f.arity) :
    (Expr.call function arguments).eval = evalAll arguments >>= f.apply function := by
  rw [eval, hf]
  exact if_pos hlength

private theorem escapes_call_iff {function : Text} {arguments : List Expr}
    (harguments : Escapes ((evalAll arguments).outcome scope p).1 fault ↔
      ListBreaksOff scope arguments p fault) :
    Escapes ((Expr.call function arguments).eval.outcome scope p).1 fault ↔
      BreaksOff scope (.call function arguments) p fault := by
  constructor
  · intro h
    rw [eval] at h
    split at h
    · exact absurd h escapes_ofProblem
    · next f hf =>
      split at h
      · next hlength =>
        rcases escapes_outcome_bind_iff.mp h with h | ⟨values, q, hvalues, h⟩
        · exact .argument hf hlength (harguments.mp h)
        · exact .call hf hlength hvalues (Builtin.escapes_apply_iff.mp h)
      · exact absurd h escapes_ofProblem
  · intro h
    cases h with
    | argument hf hlength h =>
      rw [eval_call hf hlength, escapes_outcome_bind_iff]
      exact .inl (harguments.mpr h)
    | call hf hlength hvalues h =>
      rw [eval_call hf hlength, escapes_outcome_bind_iff]
      exact .inr ⟨_, _, hvalues, Builtin.escapes_apply_iff.mpr h⟩

end Steps

mutual

/-- The evaluation of an expression ends with a fault that is no problem of the expression exactly
if the expression breaks off with it. -/
theorem escapes_eval_iff {fault : Fault} : ∀ (e : Expr) (p : Progress),
    Escapes (e.eval.outcome scope p).1 fault ↔ e.BreaksOff scope p fault
  | .number _, _ | .text _, _ | .bool _, _ => iff_of_false escapes_ok nofun
  | .variable _, _ => escapes_variable_iff
  | .element _ index, p => escapes_element_iff (escapes_eval_iff index p)
  | .unary _ operand, p => escapes_unary_iff (escapes_eval_iff operand p)
  | .binary _ left right, p => escapes_binary_iff (escapes_eval_iff left p) (escapes_eval_iff right)
  | .logic _ left right, p => escapes_logic_iff (escapes_eval_iff left p) (escapes_eval_iff right)
  | .call _ arguments, p => escapes_call_iff (escapes_evalAll_iff arguments p)

/-- A fault escapes from arguments exactly if one of them breaks off. -/
private theorem escapes_evalAll_iff {fault : Fault} : ∀ (es : List Expr) (p : Progress),
    Escapes ((evalAll es).outcome scope p).1 fault ↔ ListBreaksOff scope es p fault
  | [], _ => iff_of_false escapes_ok nofun
  | e :: rest, p => by
    rw [evalAll, escapes_outcome_bind_iff, escapes_eval_iff e p]
    constructor
    · rintro (h | ⟨v, q, hv, h⟩)
      · exact .head h
      · exact .tail hv ((escapes_evalAll_iff rest q).mp (escapes_outcome_map_iff.mp h))
    · intro h
      cases h with
      | head h => exact .inl h
      | tail hv h =>
        refine .inr ⟨_, _, hv, escapes_outcome_map_iff.mpr ?_⟩
        exact (escapes_evalAll_iff rest _).mpr h

end

/-- What is no expression is a problem of the expression. -/
theorem isExpression_of_parse {source : Text} {fault : Fault} (h : parse source = .error fault) :
    fault.isExpression = true := by
  cases hscan : scan source with
  | error f =>
    rw [parse, hscan] at h
    obtain rfl := Except.error.inj h
    rw [scan] at hscan
    split at hscan
    · cases hscan
    · cases hscan
      rfl
  | ok scanned =>
    rw [Grammar.parse_eq_of_scan hscan] at h
    cases htree : ofTokens scanned.tokens with
    | error problem =>
      rw [htree] at h
      cases h
      rfl
    | ok tree =>
      rw [htree] at h
      cases h

end Expr

/-! ### Conditions -/

namespace Eval

variable {scope : Scope} {p q : Progress} {source : Text} {tree : Expr} {fault : Fault}

/-- What ends well is not handled. -/
theorem outcome_tryCatch_of_ok {α : Type} {e : Eval α} {handle : Fault → Eval α} {a : α}
    (h : e.outcome scope p = (.ok a, q)) :
    (tryCatch e handle : Eval α).outcome scope p = (.ok a, q) := by
  simp only [outcome, tryCatch, tryCatchThe, MonadExceptOf.tryCatch, ReaderT.run,
    ExceptT.run, StateT.run, ExceptT.tryCatch, ExceptT.mk, bind, StateT.bind] at h ⊢
  rw [h]
  rfl

/-- A fault is handled from where it arose. -/
theorem outcome_tryCatch_of_error {α : Type} {e : Eval α} {handle : Fault → Eval α}
    (h : e.outcome scope p = (.error fault, q)) :
    (tryCatch e handle : Eval α).outcome scope p = (handle fault).outcome scope q := by
  simp only [outcome, tryCatch, tryCatchThe, MonadExceptOf.tryCatch, ReaderT.run,
    ExceptT.run, StateT.run, ExceptT.tryCatch, ExceptT.mk, bind, StateT.bind] at h ⊢
  rw [h]

/-- The text of an expression does what its tree does. -/
theorem outcome_expression_of_parse (h : Expr.parse source = .ok tree) :
    (expression source).outcome scope p = tree.eval.outcome scope p := by
  rw [expression, h]
  rfl

/-- A text that is no expression is a fault, and nothing is drawn or reported. -/
theorem outcome_expression_of_error (h : Expr.parse source = .error fault) :
    (expression source).outcome scope p = (.error fault, p) := by
  rw [expression, h]
  rfl

/-- A condition holds if its value is true. -/
private theorem outcome_condition_of_ok {v : Value}
    (h : (expression source).outcome scope p = (.ok v, q)) :
    (condition source).outcome scope p = (.ok v.isTrue, q) :=
  outcome_tryCatch_of_ok (outcome_bind_ok h)

/-- A condition with a problem does not hold. -/
private theorem outcome_condition_of_problem
    (h : (expression source).outcome scope p = (.error fault, q))
    (hfault : fault.isExpression = true) : (condition source).outcome scope p = (.ok false, q) := by
  rw [condition, outcome_tryCatch_of_error (outcome_bind_error h)]
  cases fault <;> first | rfl | cases hfault

/-- Any other fault remains. -/
private theorem outcome_condition_of_fault
    (h : (expression source).outcome scope p = (.error fault, q))
    (hfault : fault.isExpression = false) :
    (condition source).outcome scope p = (.error fault, q) := by
  rw [condition, outcome_tryCatch_of_error (outcome_bind_error h)]
  cases fault <;> first | rfl | cases hfault

/-- A condition holds or does not hold: it does not if it is malformed or its operands do not fit,
and otherwise its value says so. -/
private theorem condition_eq_ok_iff {holds : Bool} :
    ((condition source).outcome scope p).1 = .ok holds ↔
    (∃ fault, Expr.parse source = .error fault) ∧ holds = false ∨
      ∃ tree, Expr.parse source = .ok tree ∧
        ((∃ v, (tree.eval.outcome scope p).1 = .ok v ∧ v.isTrue = holds) ∨
          (∃ fault, (tree.eval.outcome scope p).1 = .error fault ∧ fault.isExpression = true) ∧
            holds = false) := by
  have hcomm : (Except.ok false : Except Fault Bool) = .ok holds ↔ holds = false := by
    rw [Except.ok.injEq, eq_comm]
  cases hparse : Expr.parse source with
  | error f =>
    have hexpression : (expression source).outcome scope p = (.error f, p) :=
      outcome_expression_of_error hparse
    rw [outcome_condition_of_problem hexpression (Expr.isExpression_of_parse hparse)]
    simp [hcomm]
  | ok tree =>
    have hexpression : (expression source).outcome scope p = tree.eval.outcome scope p :=
      outcome_expression_of_parse hparse
    rcases heval : tree.eval.outcome scope p with ⟨f | v, q⟩
    · rw [heval] at hexpression
      cases hf : f.isExpression with
      | true =>
        rw [outcome_condition_of_problem hexpression hf]
        simp [heval, hf, hcomm]
      | false =>
        rw [outcome_condition_of_fault hexpression hf]
        simp [heval, hf]
    · rw [heval] at hexpression
      rw [outcome_condition_of_ok hexpression]
      simp [heval]

/-- **A fault escapes from an expression exactly if its tree breaks off.** -/
private theorem escapes_expression_iff : Escapes ((expression source).outcome scope p).1 fault ↔
    ∃ tree, Expr.parse source = .ok tree ∧ tree.BreaksOff scope p fault := by
  cases hparse : Expr.parse source with
  | error f =>
    rw [outcome_expression_of_error hparse]
    refine iff_of_false ?_ (by simp)
    rintro ⟨h, hfault⟩
    cases h
    cases (Expr.isExpression_of_parse hparse).symm.trans hfault
  | ok tree =>
    rw [outcome_expression_of_parse hparse, Expr.escapes_eval_iff]
    simp

/-- A condition ends with a fault exactly if its expression breaks off with it. -/
private theorem condition_eq_error_iff : ((condition source).outcome scope p).1 = .error fault ↔
    ∃ tree, Expr.parse source = .ok tree ∧ tree.BreaksOff scope p fault := by
  rw [← escapes_expression_iff]
  rcases h : (expression source).outcome scope p with ⟨f | v, q⟩
  · cases hf : f.isExpression with
    | true =>
      rw [outcome_condition_of_problem h hf]
      refine iff_of_false nofun ?_
      rintro ⟨h, hfault⟩
      cases h
      cases hf.symm.trans hfault
    | false =>
      rw [outcome_condition_of_fault h hf]
      constructor
      · intro h
        cases h
        exact ⟨rfl, hf⟩
      · rintro ⟨h, -⟩
        cases h
        rfl
  · rw [outcome_condition_of_ok h]
    exact iff_of_false nofun escapes_ok

/-- **How conditions end.** A condition that is malformed or whose operands do not fit does not
hold. A fault leaves a condition exactly where its expression breaks off, and it is an undefined
name, an index outside an array, or a stray fault. -/
theorem condition_ends (source : Text) (scope : Scope) (drawn : Nat) :
    (∀ holds, ((condition source).run scope drawn).1 = .ok holds ↔
      (∃ fault, Expr.parse source = .error fault) ∧ holds = false ∨
        ∃ tree, Expr.parse source = .ok tree ∧
          ((∃ v, (tree.eval.run scope drawn).1 = .ok v ∧ v.isTrue = holds) ∨
            (∃ fault, (tree.eval.run scope drawn).1 = .error fault ∧
              fault.isExpression = true) ∧ holds = false)) ∧
    ∀ fault, ((condition source).run scope drawn).1 = .error fault ↔
      (fault.isUndefined = true ∨ fault.isStray = true) ∧
        ∃ tree, Expr.parse source = .ok tree ∧ tree.BreaksOff scope ⟨drawn, #[]⟩ fault := by
  refine ⟨fun holds => condition_eq_ok_iff, fun fault => ?_⟩
  rw [run_eq_outcome, condition_eq_error_iff]
  constructor
  · rintro ⟨tree, htree, h⟩
    exact ⟨h.kind, tree, htree, h⟩
  · rintro ⟨-, h⟩
    exact h

/-- A condition with a position that is no numeral. -/
def misplaced : Text := "subcadena(\"abc\", \"x\", 1) = \"a\"".toList

private theorem scan_misplaced : scan misplaced =
    .ok ⟨[⟨.word "subcadena".toList, 1⟩, ⟨.paren true, 10⟩, ⟨.string "abc".toList, 11⟩,
      ⟨.comma, 16⟩, ⟨.string "x".toList, 18⟩, ⟨.comma, 21⟩, ⟨.number (.int 1), 23⟩,
      ⟨.paren false, 24⟩, ⟨.operator .equal, 26⟩, ⟨.string "a".toList, 28⟩], 31⟩ :=
  scan_of_tokensFrom (by decide +kernel)

private theorem parse_misplaced : Expr.parse misplaced =
    .ok (.binary .equal
      (.call "subcadena".toList [.text "abc".toList, .text "x".toList, .number (.int 1)])
      (.text "a".toList)) := by
  rw [Grammar.parse_eq_of_scan scan_misplaced]
  rfl

/-- **A stray fault leaves a condition.** The text `x` is no position, and the condition neither
holds nor fails to hold. -/
theorem condition_misplaced :
    ((condition misplaced).run ⟨.empty, fun _ => 0, false⟩ 0).1 =
        .error (.invalidInteger "x".toList) ∧
      (Fault.invalidInteger "x".toList).isUndefined = false := by
  refine ⟨?_, rfl⟩
  rw [run_eq_outcome, condition_eq_error_iff]
  have hposition : Numeral.integer "x".toList = .error (.invalidInteger "x".toList) := rfl
  refine ⟨_, parse_misplaced, .left (.call rfl rfl rfl (.first ?_ (.text hposition)))⟩
  rintro ⟨k, hk, -⟩
  cases hk

end Eval

end Pseudocode
