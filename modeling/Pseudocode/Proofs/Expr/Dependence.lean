import Mathlib.Data.List.Infix
import Pseudocode.Proofs.Expr.Cutting
import Pseudocode.Proofs.Expr.Shown
import Pseudocode.Proofs.Run.Parts

/-!
# What an evaluation depends on

An evaluation looks up names in the store. **Only names that stand in the text can matter**: two
stores in which every part of the text finds the same variable, or none, give the same value or the
same fault, the same reports and the same count of random numbers (`Eval.depends_on_mentioned`).

Three steps lead there.

* The value of a tree depends on the names in it, `Expr.names`, by recursion over the tree
  (`Expr.alike_eval`).
* The names of a tree that is read from tokens are words among the tokens
  (`Grammar.Derives.hasWord`), and such a word is a part of the text
  (`Token.Reads.isInfix_of_word`).
* What a list is cut into are parts of it, too (`infix_of_mem_splitParts`), so that a part that is
  looked up as it stands is covered as well.
-/

namespace Pseudocode

namespace Expr

mutual

/-- The names that are looked up for an expression: those of its variables and its arrays. -/
def names : Expr → List Text
  | number _ | text _ | bool _ => []
  | .variable name => [name]
  | element array index => array :: index.names
  | unary _ operand => operand.names
  | binary _ left right | logic _ left right => left.names ++ right.names
  | call _ arguments => namesOfAll arguments

/-- The names that are looked up for some expressions. -/
def namesOfAll : List Expr → List Text
  | [] => []
  | e :: rest => e.names ++ namesOfAll rest

end

end Expr

/-! ### Evaluations that end alike -/

namespace Eval

variable {α β : Type} {s s' : Store}

/-- An evaluation ends in the same way with two stores, whatever happened before it. -/
def Alike (s s' : Store) (e : Eval α) : Prop :=
  ∀ (draws : Nat → Nat) (collects : Bool) (p : Progress),
    e.outcome ⟨s, draws, collects⟩ p = e.outcome ⟨s', draws, collects⟩ p

private theorem Alike.pure (a : α) : Alike s s' (Pure.pure a : Eval α) := fun _ _ _ => rfl

private theorem Alike.throw (fault : Fault) : Alike s s' (MonadExcept.throw fault : Eval α) :=
  fun _ _ _ => rfl

private theorem Alike.ofExcept (x : Except Fault α) : Alike s s' (Eval.ofExcept x) := by
  intro draws collects p
  rw [outcome_ofExcept, outcome_ofExcept]

/-- Two parts that are alike are alike together. -/
private theorem Alike.bind {e : Eval α} {k : α → Eval β} (he : Alike s s' e)
    (hk : ∀ a, Alike s s' (k a)) : Alike s s' (e >>= k) := by
  intro draws collects p
  have h := he draws collects p
  rcases hr : e.outcome ⟨s, draws, collects⟩ p with ⟨fault | a, q⟩
  · rw [outcome_bind_error hr, outcome_bind_error (h ▸ hr)]
  · rw [outcome_bind_ok hr, outcome_bind_ok (h ▸ hr)]
    exact hk a draws collects q

/-- What is done with the store comes to the same for both stores. -/
private theorem Alike.read {k : Scope → Eval α}
    (hk : ∀ draws collects, k ⟨s, draws, collects⟩ = k ⟨s', draws, collects⟩)
    (h : ∀ scope, Alike s s' (k scope)) : Alike s s' (do let scope ← read; k scope) := by
  intro draws collects p
  rw [outcome_read_bind, outcome_read_bind, ← hk]
  exact h _ draws collects p

private theorem Alike.tryCatch {e : Eval α} {handle : Fault → Eval α} (he : Alike s s' e)
    (hhandle : ∀ fault, Alike s s' (handle fault)) :
    Alike s s' (MonadExcept.tryCatch e handle : Eval α) := by
  intro draws collects p
  have h := he draws collects p
  rcases hr : e.outcome ⟨s, draws, collects⟩ p with ⟨fault | a, q⟩
  · rw [outcome_tryCatch_of_error hr, outcome_tryCatch_of_error (h ▸ hr)]
    exact hhandle fault draws collects q
  · rw [outcome_tryCatch_of_ok hr, outcome_tryCatch_of_ok (h ▸ hr)]

private theorem alike_draw (bound : Nat) : Alike s s' (draw bound) := fun _ _ _ => rfl

private theorem alike_report (fault : Fault) : Alike s s' (report fault) := by
  intro draws collects p
  cases collects <;> rfl

end Eval

open Eval (Alike)

variable {s s' : Store}

/-- A call does not look into the store. -/
private theorem Builtin.alike_apply (f : Builtin) (name : Text) (arguments : List Value) :
    Alike s s' (f.apply name arguments) := by
  unfold Builtin.apply
  split
  · exact .bind (.ofExcept _) fun _ => .bind (.ofExcept _) fun _ => .pure _
  · refine .bind (.ofExcept _) fun n => ?_
    unfold randomBelow
    split
    · exact .bind (.ofExcept _) fun _ => .bind (Eval.alike_draw _) fun _ => .pure _
    · exact .pure _
  · exact .ofExcept _
  · exact .ofExcept _
  · exact .ofExcept _
  · exact .bind (.ofExcept _) fun _ => .pure _
  · exact .throw _

private theorem Store.lookup_congr {name : Text} (h : s.get? name = s'.get? name) (hint : Bool) :
    s.lookup name hint = s'.lookup name hint := by
  rw [lookup, lookup, h]

private theorem Store.getElement_congr {name : Text} (h : s.get? name = s'.get? name)
    (index : Value) :
    s.getElement name index = s'.getElement name index := by
  rw [getElement, getElement, arrayOf, arrayOf, h]

namespace Expr

mutual

/-- **The value of an expression depends on the names in it.** -/
theorem alike_eval : ∀ e : Expr, (∀ w ∈ e.names, s.get? w = s'.get? w) → Alike s s' e.eval
  | .number _, _ | .text _, _ | .bool _, _ => .pure _
  | .variable name, h => by
    have hname := h name (by simp [names])
    refine .read (fun draws collects => ?_) fun _ => .bind (.ofExcept _) fun _ => .pure _
    rw [Store.lookup_congr hname]
  | .element array index, h => by
    rw [names, List.forall_mem_cons] at h
    refine .bind (alike_eval index h.2) fun i => ?_
    refine .read (fun draws collects => ?_) fun _ => .ofExcept _
    rw [Store.getElement_congr h.1]
  | .unary _ operand, h => .bind (alike_eval operand h) fun _ => .ofExcept _
  | .binary _ left right, h => by
    rw [names, List.forall_mem_append] at h
    exact .bind (alike_eval left h.1) fun _ => .bind (alike_eval right h.2) fun _ => .ofExcept _
  | .logic op left right, h => by
    rw [names, List.forall_mem_append] at h
    rw [eval_logic]
    refine .bind (alike_eval left h.1) fun a => ?_
    split
    · exact .bind (alike_eval right h.2) fun _ => .pure _
    · exact .pure _
  | .call function arguments, h => by
    rw [eval]
    split
    · exact .throw _
    · split
      · exact .bind (alike_evalAll arguments h) fun _ => Builtin.alike_apply _ _ _
      · exact .throw _

private theorem alike_evalAll : ∀ es : List Expr, (∀ w ∈ namesOfAll es, s.get? w = s'.get? w) →
    Alike s s' (evalAll es)
  | [], _ => .pure _
  | e :: rest, h => by
    rw [namesOfAll, List.forall_mem_append] at h
    exact .bind (alike_eval e h.1) fun _ => .bind (alike_evalAll rest h.2) fun _ => .pure _

end

end Expr

/-! ### The names of a text -/

namespace Grammar

mutual

/-- What a phrase leaves is the end of its tokens. -/
private theorem Derives.suffix {p : Phrase} {ts rest : List Token} {e : Expr} :
    Derives p ts e rest → rest <:+ ts
  | .operand h | .compare _ h | .unsigned h | .base h => h.suffix
  | .join h _ h' | .raise h _ h' => (h'.suffix.trans (List.suffix_cons _ _)).trans h.suffix
  | .negate _ h | .minus _ h | .plus _ h => h.suffix.trans (List.suffix_cons _ _)
  | .number _ | .string _ | .verdadero _ | .falso _ | .name _ _ => List.suffix_cons _ _
  | .element _ _ _ h _ =>
    ((List.suffix_cons _ _).trans h.suffix).trans ⟨[_, _], rfl⟩
  | .parenthesized _ h _ => ((List.suffix_cons _ _).trans h.suffix).trans (List.suffix_cons _ _)
  | .callNone _ _ _ _ => ⟨[_, _, _], rfl⟩
  | .call _ _ _ h => h.suffix.trans ⟨[_, _], rfl⟩

private theorem DerivesArguments.suffix {ts rest : List Token} {es : List Expr} :
    DerivesArguments ts es rest → rest <:+ ts
  | .last h _ => (List.suffix_cons _ _).trans h.suffix
  | .more h _ h' => (h'.suffix.trans (List.suffix_cons _ _)).trans h.suffix

end

/-- The word is one of the tokens. -/
def HasWord (ts : List Token) (w : Text) : Prop := ∃ t ∈ ts, t.symbol = .word w

private theorem HasWord.mono {ts us : List Token} {w : Text} (h : HasWord us w) (hsub : us ⊆ ts) :
    HasWord ts w := by
  obtain ⟨t, ht, hw⟩ := h
  exact ⟨t, hsub ht, hw⟩

private theorem Joins.names_eq {a b e : Expr} {l : Level} {s : Symbol} (h : Joins a b l s e) :
    e.names = a.names ++ b.names := by
  cases h <;> rfl

mutual

/-- **The names of a tree are words among the tokens.** -/
theorem Derives.hasWord {p : Phrase} {ts rest : List Token} {e : Expr} :
    Derives p ts e rest → ∀ w ∈ e.names, HasWord ts w
  | .operand h, w, hw | .compare _ h, w, hw | .unsigned h, w, hw | .base h, w, hw =>
    h.hasWord w hw
  | .join h hjoins h', w, hw => by
    rw [hjoins.names_eq, List.mem_append] at hw
    rcases hw with hw | hw
    · exact h.hasWord w hw
    · exact (h'.hasWord w hw).mono ((List.suffix_cons _ _).trans h.suffix).subset
  | .raise h _ h', w, hw => by
    rw [Expr.names, List.mem_append] at hw
    rcases hw with hw | hw
    · exact h.hasWord w hw
    · exact (h'.hasWord w hw).mono ((List.suffix_cons _ _).trans h.suffix).subset
  | .negate _ h, w, hw | .minus _ h, w, hw | .plus _ h, w, hw | .parenthesized _ h _, w, hw =>
    (h.hasWord w hw).mono (List.subset_cons_self _ _)
  | .name ht _, w, hw => by
    obtain rfl := List.mem_singleton.mp hw
    exact ⟨_, List.mem_cons_self, ht⟩
  | .element ht _ _ h _, w, hw => by
    rw [Expr.names, List.mem_cons] at hw
    rcases hw with rfl | hw
    · exact ⟨_, List.mem_cons_self, ht⟩
    · exact (h.hasWord w hw).mono (List.suffix_append [_, _] _).subset
  | .call _ _ _ h, w, hw => (h.hasWord w hw).mono (List.suffix_append [_, _] _).subset
  | .number _, _, hw | .string _, _, hw | .verdadero _, _, hw | .falso _, _, hw |
    .callNone _ _ _ _, _, hw => absurd hw List.not_mem_nil

/-- Every name in the arguments is a word among the tokens. -/
private theorem DerivesArguments.hasWord {ts rest : List Token} {es : List Expr} :
    DerivesArguments ts es rest → ∀ w ∈ Expr.namesOfAll es, HasWord ts w
  | .last h _, w, hw => by
    rw [Expr.namesOfAll, Expr.namesOfAll, List.append_nil] at hw
    exact h.hasWord w hw
  | .more h _ h', w, hw => by
    rw [Expr.namesOfAll, List.mem_append] at hw
    rcases hw with hw | hw
    · exact h.hasWord w hw
    · exact (h'.hasWord w hw).mono ((List.suffix_cons _ _).trans h.suffix).subset

end

end Grammar

private theorem Token.Lexed.text_of_word {c : Char} {more : Text} {l : Lexeme} (h : Lexed c more l)
    {w : Text} (hl : l.symbol = .word w) : l.text = w := by
  cases h with
  | word _ =>
    cases hl
    rfl
  | mark hmark =>
    obtain rfl : _ = Symbol.word w := hl
    cases hmark
  | _ => cases hl

/-- **A word of a text is a part of it.** -/
theorem Token.Reads.isInfix_of_word {t : Text} {ss : List Symbol} (h : Reads t ss) {w : Text}
    (hw : .word w ∈ ss) : w <:+: t := by
  induction h with
  | nil => cases hw
  | blank _ _ ih => exact (ih hw).trans (List.suffix_cons _ _).isInfix
  | @symbol c more l ss _ hlexed _ ih =>
    obtain ⟨htext, hmore⟩ := hlexed.append
    have hsplit : c :: more = l.text ++ l.rest := by rw [hmore, ← List.cons_append, ← htext]
    rw [hsplit]
    rcases List.mem_cons.mp hw with hw | hw
    · rw [hlexed.text_of_word hw.symm]
      exact (List.prefix_append _ _).isInfix
    · exact (ih hw).trans (List.suffix_append _ _).isInfix

private theorem Text.isInfix_trim (t : Text) : t.trim <:+: t := by
  have hstart : t.trimStart <:+ t := List.dropWhile_suffix _
  have hend : t.trim <+: t.trimStart := Text.trimEnd_prefix _
  exact hend.isInfix.trans hstart.isInfix

/-- **Every name in an expression stands in its text.** -/
private theorem Expr.infix_of_mem_names {source : Text} {e : Expr} (h : Expr.parse source = .ok e)
    {w : Text} (hw : w ∈ e.names) : w <:+: source := by
  obtain ⟨tokens, htokens, hderives⟩ := Grammar.parse_eq_ok_iff.mp h
  obtain ⟨t, ht, hword⟩ := hderives.hasWord w hw
  have hreads := Token.reads_of_tokensFrom htokens
  exact (hreads.isInfix_of_word (List.mem_map.mpr ⟨t, ht, hword⟩)).trans source.isInfix_trim

private theorem infix_of_mem_piecesFrom {previous quote : Option Char} {depth : Nat}
    {t piece : Text} (h : piece ∈ piecesFrom previous quote depth t) : piece <:+: t := by
  induction t generalizing previous quote depth with
  | nil =>
    obtain rfl := List.mem_singleton.mp h
    exact List.infix_rfl
  | cons c rest ih =>
    rw [piecesFrom_cons] at h
    split at h
    · rcases List.mem_cons.mp h with rfl | h
      · exact List.nil_infix
      · exact (ih h).trans (List.suffix_cons _ _).isInfix
    · obtain ⟨first, more, hpieces⟩ := List.exists_cons_of_ne_nil
        (piecesFrom_ne_nil (some c) (quoteBehind previous c quote)
          (depthBehind previous c quote depth) rest)
      -- the first piece needs more than that it is an infix: the character goes before it
      rw [hpieces, keep] at h
      rcases List.mem_cons.mp h with rfl | h
      · exact (List.cons_prefix_cons.mpr ⟨rfl, prefix_of_piecesFrom hpieces⟩).isInfix
      · exact (ih (hpieces ▸ List.mem_cons_of_mem _ h)).trans (List.suffix_cons _ _).isInfix

/-- **The parts of a list are parts of its text.** -/
theorem infix_of_mem_splitParts {t p : Text} (h : p ∈ splitParts t) : p <:+: t := by
  obtain ⟨piece, hpiece, rfl⟩ := List.mem_map.mp (List.mem_filter.mp h).1
  exact piece.isInfix_trim.trans (infix_of_mem_piecesFrom hpiece)

/-! ### Texts -/

/-- Every part of the text finds the same variable in both stores, or none. -/
def Store.AgreeOn (source : Text) (s s' : Store) : Prop :=
  ∀ w, w <:+: source → s.get? w = s'.get? w

private theorem Store.AgreeOn.part {source p : Text} (h : Store.AgreeOn source s s')
    (hp : p <:+: source) : Store.AgreeOn p s s' :=
  fun w hw => h w (hw.trans hp)

namespace Eval

variable {source : Text}

/-- An expression depends only on the variables that its text mentions. -/
private theorem alike_expression (h : Store.AgreeOn source s s') :
    Alike s s' (expression source) := by
  intro draws collects p
  cases hparse : Expr.parse source with
  | error fault =>
    rw [outcome_expression_of_error hparse, outcome_expression_of_error hparse]
  | ok tree =>
    rw [outcome_expression_of_parse hparse, outcome_expression_of_parse hparse]
    have hnames : ∀ w ∈ tree.names, s.get? w = s'.get? w :=
      fun w hw => h w (Expr.infix_of_mem_names hparse hw)
    exact tree.alike_eval hnames draws collects p

/-- So does a part of a list. -/
private theorem alike_part (h : Store.AgreeOn source s s') : Alike s s' (part source) := by
  unfold part
  split
  · exact .pure _
  · refine .read (fun draws collects => ?_) fun scope => ?_
    · rw [h source List.infix_rfl]
    · split
      · exact .ofExcept _
      · split
        · exact .bind (alike_report _) fun _ => .pure _
        · exact .bind (alike_expression h) fun _ => .ofExcept _

private theorem alike_parts {ts : List Text} (h : ∀ t ∈ ts, Store.AgreeOn t s s') :
    Alike s s' (parts ts) := by
  induction ts with
  | nil => exact .pure _
  | cons t rest ih =>
    obtain ⟨ht, hrest⟩ := List.forall_mem_cons.mp h
    exact .bind (alike_part ht) fun _ => .bind (ih hrest) fun _ => .pure _

/-- So does a list. -/
private theorem alike_concatenation (h : Store.AgreeOn source s s') :
    Alike s s' (concatenation source) :=
  .bind (alike_parts fun _ hp => h.part (infix_of_mem_splitParts hp)) fun _ => .pure _

/-- So does a value. -/
private theorem alike_value (h : Store.AgreeOn source s s') : Alike s s' (value source) := by
  unfold value
  split
  · exact .bind (alike_concatenation h) fun _ => .pure _
  · exact alike_expression h

/-- So does a condition. -/
private theorem alike_condition (h : Store.AgreeOn source s s') :
    Alike s s' (condition source) := by
  refine .tryCatch (.bind (alike_expression h) fun _ => .pure _) fun fault => ?_
  split
  · exact .pure _
  · exact .throw _

/-- It makes no difference to an evaluation which of two stores it sees: it ends with the same
value or fault, the same reports and the same count of random numbers. A run that carries it out
keeps its store. -/
structure Indifferent {α : Type} (s s' : Store) (e : Eval α) : Prop where
  run_eq : ∀ (draws : Nat → Nat) (collects : Bool) (drawn : Nat),
    e.run ⟨s, draws, collects⟩ drawn = e.run ⟨s', draws, collects⟩ drawn
  keeps : ∀ (around : Surroundings) (state : RunState),
    ((Exec.evaluate e).run around state).2.store = state.store

private theorem Alike.indifferent {α : Type} {e : Eval α} (h : Alike s s' e) :
    Indifferent s s' e where
  run_eq draws collects drawn := by
    rw [run_eq_outcome, run_eq_outcome]
    exact h draws collects _
  keeps around state := by rw [Exec.run_evaluate]

/-- **An evaluation depends only on the names that its text mentions.** If every part of the text
finds the same variable in two stores, or none, it makes no difference which of them the value, the
condition or the list that the text stands for is evaluated with. -/
theorem depends_on_mentioned (source : Text) (s s' : Store)
    (h : ∀ w, w <:+: source → s.get? w = s'.get? w) :
    Indifferent s s' (value source) ∧ Indifferent s s' (condition source) ∧
      Indifferent s s' (concatenation source) :=
  ⟨(alike_value h).indifferent, (alike_condition h).indifferent,
    (alike_concatenation h).indifferent⟩

/-- The array and the counter that `lista[N] > 1` mentions. -/
def listed : Store :=
  ⟨[⟨"n".toList, .integer, .int 1⟩, ⟨"Lista".toList, .array, .array #[0, 2]⟩]⟩

/-- The same two variables in another order, among others. -/
def listedAmongOthers : Store :=
  ⟨[⟨"listas".toList, .integer, .int 7⟩, ⟨"Lista".toList, .array, .array #[0, 2]⟩,
    ⟨"m".toList, .string, .text "n".toList⟩, ⟨"n".toList, .integer, .int 1⟩]⟩

/-- A condition on an element, in two stores that agree on the array and the index only. -/
theorem depends_on_mentioned_listed :
    Store.AgreeOn "lista[N] > 1".toList listed listedAmongOthers ∧
      Indifferent listed listedAmongOthers (condition "lista[N] > 1".toList) := by
  have hagree : Store.AgreeOn "lista[N] > 1".toList listed listedAmongOthers := by
    have hparts : ("lista[N] > 1".toList.tails.flatMap List.inits).all
        (fun w => listed.get? w == listedAmongOthers.get? w) = true := by decide
    intro w hw
    obtain ⟨t, hfront, hsuffix⟩ := List.infix_iff_prefix_suffix.mp hw
    have hmem : w ∈ "lista[N] > 1".toList.tails.flatMap List.inits :=
      List.mem_flatMap.mpr ⟨t, (List.mem_tails _ _).mpr hsuffix, (List.mem_inits _ _).mpr hfront⟩
    exact eq_of_beq (List.all_eq_true.mp hparts w hmem)
  exact ⟨hagree, (depends_on_mentioned _ listed listedAmongOthers hagree).2.1⟩

end Eval

end Pseudocode
