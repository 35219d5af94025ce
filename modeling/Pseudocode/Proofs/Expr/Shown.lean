import Pseudocode.Proofs.Expr.Conditions
import Pseudocode.Proofs.Expr.Parts
import Pseudocode.Proofs.Expr.Plain
import Pseudocode.Proofs.Expr.RoundTrip
import Pseudocode.Proofs.Store.History

/-!
# What a part of a list shows

A part of a list that is written goes through three shortcuts before it is evaluated: a string in
quotes is copied, the name of a variable is looked up as it stands, and any other name is reported
as undefined. Where the part is an expression with a value, the shortcuts make no difference
(`Eval.outcome_part`), as long as the keys of the variables are plain:

* A string in quotes as a whole is one string to the scanner, too (`parse_of_isQuotedLiteral`).
* A part that finds a variable is plain like the key, so that it can be an expression only as the
  name of the variable or as a number or a truth value. This last case is the exception:
  `Store.Shadows` says that **a variable has the same name as a constant**, and then the variable is
  what is shown.
* A name that is no truth value and finds no variable is no expression that has a value.

Evaluating an expression reports nothing (`Expr.quiet_eval`); only parts do.
-/

namespace Pseudocode

/-! ### Expressions report nothing -/

namespace Eval

variable {α β : Type}

/-- An evaluation reports nothing, however it ends. -/
def Quiet (e : Eval α) : Prop :=
  ∀ (scope : Scope) (p : Progress), (e.outcome scope p).2.reports = p.reports

private theorem Quiet.pure (a : α) : Quiet (Pure.pure a : Eval α) := fun _ _ => rfl

private theorem Quiet.throw (fault : Fault) :
    Quiet (MonadExcept.throw fault : Eval α) := fun _ _ => rfl

private theorem Quiet.read : Quiet (MonadReader.read : Eval Scope) := fun _ _ => rfl

/-- A result or a fault that there is already reports nothing. -/
theorem Quiet.ofExcept (x : Except Fault α) : Quiet (Eval.ofExcept x) := by
  intro scope p
  rw [outcome_ofExcept]

/-- Two parts that report nothing report nothing together. -/
theorem Quiet.bind {e : Eval α} {k : α → Eval β} (he : Quiet e) (hk : ∀ a, Quiet (k a)) :
    Quiet (e >>= k) := by
  intro scope p
  have h := he scope p
  rcases hr : e.outcome scope p with ⟨fault | a, q⟩
  · rw [hr] at h
    rw [outcome_bind_error hr]
    exact h
  · rw [hr] at h
    rw [outcome_bind_ok hr, hk a scope q]
    exact h

private theorem quiet_draw (bound : Nat) : Quiet (draw bound) := fun _ _ => rfl

end Eval

open Eval (Quiet)

/-- A call draws random numbers at most. -/
private theorem Builtin.quiet_apply (f : Builtin) (name : Text) (arguments : List Value) :
    Quiet (f.apply name arguments) := by
  unfold Builtin.apply
  split
  · exact .bind (.ofExcept _) fun _ => .bind (.ofExcept _) fun _ => .pure _
  · refine .bind (.ofExcept _) fun n => ?_
    unfold randomBelow
    split
    · exact .bind (.ofExcept _) fun _ => .bind (Eval.quiet_draw _) fun _ => .pure _
    · exact .pure _
  · exact .ofExcept _
  · exact .ofExcept _
  · exact .ofExcept _
  · exact .bind (.ofExcept _) fun _ => .pure _
  · exact .throw _

namespace Expr

mutual

/-- **Evaluating an expression reports nothing.** -/
theorem quiet_eval : ∀ e : Expr, Quiet e.eval
  | .number _ | .text _ | .bool _ => .pure _
  | .variable _ => .bind .read fun _ => .bind (.ofExcept _) fun _ => .pure _
  | .element _ index => .bind (quiet_eval index) fun _ => .bind .read fun _ => .ofExcept _
  | .unary _ operand => .bind (quiet_eval operand) fun _ => .ofExcept _
  | .binary _ left right =>
    .bind (quiet_eval left) fun _ => .bind (quiet_eval right) fun _ => .ofExcept _
  | .logic .and left right => by
    refine .bind (quiet_eval left) fun a => ?_
    split
    · exact .bind (quiet_eval right) fun _ => .pure _
    · exact .pure _
  | .logic .or left right => by
    refine .bind (quiet_eval left) fun a => ?_
    split
    · exact .pure _
    · exact .bind (quiet_eval right) fun _ => .pure _
  | .call function arguments => by
    rw [eval]
    split
    · exact .throw _
    · split
      · exact .bind (quiet_evalAll arguments) fun _ => Builtin.quiet_apply _ _ _
      · exact .throw _

private theorem quiet_evalAll : ∀ es : List Expr, Quiet (evalAll es)
  | [] => .pure _
  | e :: rest => .bind (quiet_eval e) fun _ => .bind (quiet_evalAll rest) fun _ => .pure _

end

/-! ### Strings in quotes -/

private theorem eq_of_isQuotedLiteral {p : Text} (h : Eval.isQuotedLiteral p = true) :
    ∃ q content, isQuote q = true ∧ content.contains q = false ∧ p = q :: (content ++ [q]) := by
  cases p with
  | nil => cases h
  | cons q rest =>
    simp only [Eval.isQuotedLiteral, Bool.and_eq_true, beq_iff_eq, Bool.not_eq_true'] at h
    obtain ⟨⟨hq, hlast⟩, hcontent⟩ := h
    exact ⟨q, rest.dropLast, hq, hcontent, by rw [List.dropLast_append_getLast? q hlast]⟩

/-- **A string in quotes as a whole is the expression of what stands between the quotes.** -/
theorem parse_of_isQuotedLiteral {p : Text} (hp : p.Trimmed) (h : Eval.isQuotedLiteral p = true) :
    Expr.parse p = .ok (.text (p.drop 1).dropLast) := by
  obtain ⟨q, content, hq, hcontent, rfl⟩ := eq_of_isQuotedLiteral h
  have htext : ((q :: (content ++ [q])).drop 1).dropLast = content := List.dropLast_concat
  have hlexeme : Token.lexeme 1 q (content ++ [q] ++ []) = .ok _ :=
    Token.lexeme_string hq 1 hcontent
  rw [List.append_nil] at hlexeme
  rw [htext, Grammar.parse_eq_ok_iff, hp.trim_eq,
    Token.tokensFrom_of_lexeme (hp.head q rfl) hlexeme, Token.tokensFrom]
  refine ⟨[⟨.string content, 1⟩], rfl, ?_⟩
  have hstart : Grammar.StartsPlain (.string content) := by
    refine .of_ne ?_ fun name => ?_ <;> simp
  exact (Grammar.Derives.string rfl).loosen (Nat.zero_le _) fun _ => hstart.not_negates _

end Expr

/-! ### Parts -/

/-- A text finds a variable in a store, and as an expression it is a number or a truth value. -/
def Store.Shadows (store : Store) (p : Text) (w : Variable) : Prop :=
  store.get? p = some w ∧
    ((∃ n, Expr.parse p = .ok (.number n)) ∨ ∃ b, Expr.parse p = .ok (.bool b))

namespace Eval

variable {scope : Scope} {p : Text} {q q' : Progress} {v : Value}

/-- A string in quotes is shown as it is between them. -/
theorem outcome_part_of_quoted (h : isQuotedLiteral p = true) :
    (part p).outcome scope q = (.ok (p.drop 1).dropLast, q) := by
  rw [part, if_pos h]
  rfl

/-- The name of a variable is shown as the value of the variable is. -/
theorem outcome_part_of_get? (hquoted : isQuotedLiteral p = false) {w : Variable}
    (h : scope.store.get? p = some w) : (part p).outcome scope q = (w.value.display, q) := by
  rw [part, if_neg (by simp [hquoted]), outcome_read_bind, h]
  exact outcome_ofExcept _

private theorem outcome_part_of_expression (hquoted : isQuotedLiteral p = false)
    (h : scope.store.get? p = none) (hname : (p.isName && (truthWord? p.lower).isNone) = false)
    (hv : (expression p).outcome scope q = (.ok v, q')) :
    (part p).outcome scope q = (v.display, q') := by
  rw [part, if_neg (by simp [hquoted]), outcome_read_bind, h]
  simp only [hname, Bool.false_eq_true, if_false]
  rw [outcome_bind_ok hv, outcome_ofExcept]

/-- A list of one part shows what the part shows. -/
theorem outcome_concatenation_of_splitParts (h : splitParts p = [p]) :
    (concatenation p).outcome scope q = (part p).outcome scope q := by
  rw [concatenation, h, parts]
  rcases hpart : (part p).outcome scope q with ⟨fault | shown, q'⟩
  · rw [outcome_bind_error (outcome_bind_error hpart)]
  · rw [bind_assoc, outcome_bind_ok hpart]
    rfl

/-- A text with a value is an expression. -/
theorem exists_parse_of_expression (hv : (expression p).outcome scope q = (.ok v, q')) :
    ∃ e, Expr.parse p = .ok e ∧ e.eval.outcome scope q = (.ok v, q') := by
  cases hparse : Expr.parse p with
  | error fault =>
    rw [outcome_expression_of_error hparse] at hv
    cases hv
  | ok e => exact ⟨e, rfl, outcome_expression_of_parse hparse ▸ hv⟩

/-- A variable has the value that is stored under its name, and nothing else happens. -/
theorem outcome_variable_eq_ok_iff {name : Text} :
    (Expr.variable name).eval.outcome scope q = (.ok v, q') ↔
      ∃ w, scope.store.get? name = some w ∧ w.value = v ∧ q = q' := by
  rw [Expr.eval_variable, outcome_read_bind]
  cases hlookup : scope.store.lookup name false with
  | error fault =>
    rw [outcome_bind_error (outcome_ofExcept _)]
    refine iff_of_false (fun h => by cases h) ?_
    rintro ⟨w, hw, -⟩
    cases hlookup.symm.trans (Store.lookup_eq_ok_iff.mpr hw)
  | ok w =>
    rw [outcome_bind_ok (outcome_ofExcept _), Store.lookup_eq_ok_iff.mp hlookup]
    constructor
    · rintro ⟨⟩
      exact ⟨w, rfl, rfl, rfl⟩
    · rintro ⟨_, ⟨⟩, rfl, rfl⟩
      rfl

/-- Whatever finds a variable is plain, if the keys of the variables are. -/
theorem isPlain_of_get? {store : Store} (hkeys : ∀ key ∈ store.keys, key.all Text.isPlain = true)
    {w : Variable} (h : store.get? p = some w) : ∀ k ∈ p, Text.isPlain k = true := by
  have hkey : p.lower ∈ store.keys :=
    Store.key_of_get? h ▸ List.mem_map_of_mem (List.mem_of_find?_eq_some h)
  exact List.all_eq_true.mp (Text.all_isPlain_lower p ▸ hkeys _ hkey)

/-- An undefined name has no value. -/
private theorem get?_ne_none_of_isName (htrimmed : p.Trimmed) (hname : p.isName = true)
    (htruth : truthWord? p.lower = none) (hv : (expression p).outcome scope q = (.ok v, q')) :
    scope.store.get? p ≠ none := by
  have hword := Text.isWordChar_of_isName htrimmed hname
  obtain ⟨e, hparse, heval⟩ := exists_parse_of_expression hv
  cases plainly_of_parse (fun k hk => Text.isPlain_of_isWordChar (hword k hk)) hparse with
  | number n hdigit =>
    -- a name does not start with a digit
    obtain ⟨c, hc, hdecimal⟩ := hdigit
    cases p with
    | nil => cases hc
    | cons d rest =>
      obtain rfl := Option.some.inj hc
      simp [Text.isName, Text.isNameStart, hdecimal] at hname
  | truth b hno => exact absurd (Grammar.truthWord?_eq_none_iff.mp htruth) hno
  | name _ =>
    obtain ⟨w, hw, -⟩ := outcome_variable_eq_ok_iff.mp heval
    rw [hw]
    exact Option.some_ne_none w

/-- **What a part shows is its value**, unless a variable shadows it; then it is the value of the
variable. -/
theorem outcome_part (hkeys : ∀ key ∈ scope.store.keys, key.all Text.isPlain = true)
    (htrimmed : p.Trimmed) (hv : (expression p).outcome scope q = (.ok v, q')) :
    ((∀ w, ¬ scope.store.Shadows p w) → (part p).outcome scope q = (v.display, q')) ∧
      ∀ w, scope.store.Shadows p w → (part p).outcome scope q = (w.value.display, q) := by
  obtain ⟨e, hparse, heval⟩ := exists_parse_of_expression hv
  cases hquoted : isQuotedLiteral p with
  | true =>
    have htext := Expr.parse_of_isQuotedLiteral htrimmed hquoted
    obtain rfl := Except.ok.inj (hparse.symm.trans htext)
    obtain ⟨hshown, rfl⟩ := Prod.mk.inj heval
    obtain rfl := Except.ok.inj hshown
    refine ⟨fun _ => outcome_part_of_quoted hquoted, ?_⟩
    rintro w ⟨-, ⟨n, hn⟩ | ⟨b, hb⟩⟩
    · cases htext.symm.trans hn
    · cases htext.symm.trans hb
  | false =>
    refine ⟨fun hshadows => ?_, fun w hw => outcome_part_of_get? hquoted hw.1⟩
    cases hget : scope.store.get? p with
    | some w =>
      cases plainly_of_parse (isPlain_of_get? hkeys hget) hparse with
      | number n _ => exact absurd ⟨hget, .inl ⟨n, hparse⟩⟩ (hshadows w)
      | truth b _ => exact absurd ⟨hget, .inr ⟨b, hparse⟩⟩ (hshadows w)
      | name _ =>
        -- the evaluator looks up the same name
        obtain ⟨_, hw, rfl, rfl⟩ := outcome_variable_eq_ok_iff.mp heval
        exact outcome_part_of_get? hquoted hw
    | none =>
      refine outcome_part_of_expression hquoted hget ?_ hv
      refine Bool.eq_false_iff.mpr fun hname => ?_
      obtain ⟨hname, htruth⟩ := (Bool.and_eq_true _ _).mp hname
      exact get?_ne_none_of_isName htrimmed hname (Option.isNone_iff_eq_none.mp htruth) hv hget

end Eval

end Pseudocode
