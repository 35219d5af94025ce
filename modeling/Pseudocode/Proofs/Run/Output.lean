import Pseudocode.Proofs.Expr.Shown
import Pseudocode.Proofs.Run.Names

/-!
# What is written is the value

`Escribir` and the evaluator read the same parts in two ways, and what they make of them agrees in
every store that a run can come to (`concatenation_shows_value`). Such a store has plain keys only,
since all the names in a program are words (`Reachable.isPlain`), and this is what rules out that a
longer expression is taken for a variable.

The one exception is a variable with the name of a constant. `Definir verdadero Como Logico` is
allowed, and so is a loop with the counter `1`. `Escribir` then shows the variable, while every
expression goes on to mean the constant.
-/

namespace Pseudocode.Machine

/-- A store that some program comes to, whatever surrounds it: between two turns, or in the middle
of one, where an observer is told of the store. -/
def Reachable (store : Store) : Prop :=
  ∃ (around : Surroundings) (source : Text) (n : Nat),
    store ∈ (after around (Program.ofSource source) n).1.stores

/-- The keys of a store that is reached are plain. -/
theorem Reachable.isPlain {store : Store} (h : Reachable store) :
    ∀ key ∈ store.keys, key.all Text.isPlain = true := by
  obtain ⟨around, source, n, hstore⟩ := h
  intro key hkey
  obtain ⟨name, hname, rfl⟩ := exists_mem_defined around _ n store hstore key hkey
  rw [Text.all_isPlain_lower, List.all_eq_true]
  intro k hk
  exact Text.isPlain_of_isWordChar (Program.isWordChar_of_mem_defined hname k hk)

/-- **What is written agrees with the evaluator.** In every store that a run comes to, if a part of
a list is an expression with a value, then as a list it stands for the value as it is shown, and
nothing is reported; except that a variable with the name of a constant is shown in place of the
constant. -/
theorem concatenation_shows_value {store : Store} (hstore : Reachable store) {list p : Text}
    (hp : p ∈ splitParts list) {draws : Nat → Nat} {collects : Bool} {drawn : Nat} {v : Value}
    {progress : Progress}
    (hv : (Eval.expression p).run ⟨store, draws, collects⟩ drawn = (.ok v, progress)) :
    progress.reports = #[] ∧
      ((∀ w, ¬ store.Shadows p w) →
        (Eval.concatenation p).run ⟨store, draws, collects⟩ drawn = (v.display, progress)) ∧
      ∀ w, store.Shadows p w →
        (Eval.concatenation p).run ⟨store, draws, collects⟩ drawn =
          (w.value.display, ⟨drawn, #[]⟩) := by
  obtain ⟨-, htrimmed, hsplit⟩ := splitParts_of_mem hp
  rw [Eval.run_eq_outcome] at hv
  rw [Eval.run_eq_outcome, Eval.outcome_concatenation_of_splitParts hsplit]
  refine ⟨?_, Eval.outcome_part hstore.isPlain htrimmed hv⟩
  obtain ⟨e, -, heval⟩ := Eval.exists_parse_of_expression hv
  have hquiet := e.quiet_eval ⟨store, draws, collects⟩ ⟨drawn, #[]⟩
  rwa [heval] at hquiet

/-! ### A variable of the name of a constant -/

/-- A definition of two variables, one of them with the name of a truth value. -/
def twoNames : Text := "Definir verdadero, n Como Logico".toList

/-- The variables that it defines. -/
def twoFalse : Store :=
  ⟨[⟨"verdadero".toList, .logical, .bool false⟩, ⟨"n".toList, .logical, .bool false⟩]⟩

private theorem read_twoNames (lines : List Line) (i : Nat) : Action.read lines i twoNames =
    .declare ["verdadero".toList, "n".toList] "Logico".toList := by
  have hmarker : ¬ Shape.marker.fits twoNames = true := by decide
  have hfind : Shape.declare.find? twoNames = some ("verdadero, n".toList, "Logico".toList) := by
    decide
  have hnames : Action.namesOf "verdadero, n".toList = ["verdadero".toList, "n".toList] := by
    decide
  have hall : ["verdadero".toList, "n".toList].all Text.isName = true := by decide
  simp only [Action.read, if_neg hmarker, hfind, Action.readDeclare, hnames, if_pos hall]

/-- The program of the definition. -/
def twoNamesProgram : Program where
  statements := #[⟨⟨1, twoNames⟩, .declare ["verdadero".toList, "n".toList] "Logico".toList⟩]
  fits i h := by
    obtain rfl : i = 0 := by simpa using h
    trivial

private theorem ofSource_twoNames : Program.ofSource twoNames = twoNamesProgram := by
  have hlines : Line.ofSource twoNames = [⟨1, twoNames⟩] := by decide +kernel
  rw [Program.ofSource, hlines]
  simp only [Program.ofLines, Program.statementsOf, List.mapIdx_cons, List.mapIdx_nil,
    read_twoNames, twoNamesProgram]

private theorem reachable_twoFalse : Reachable twoFalse := by
  refine ⟨.unattended, twoNames, 2, ?_⟩
  rw [ofSource_twoNames]
  exact List.mem_cons_self

private theorem parse_n : Expr.parse "n".toList = .ok (.variable "n".toList) := by
  have htokens : Token.tokensFrom 1 (Text.trim "n".toList) = .ok [⟨.word "n".toList, 1⟩] := by
    decide +kernel
  have hname : Grammar.IsName "n".toList := ⟨by decide, by decide⟩
  have hstart : Grammar.StartsPlain (.word "n".toList) := .word (by decide) (by decide)
  refine Grammar.parse_eq_ok_iff.mpr ⟨_, htokens, ?_⟩
  exact (Grammar.Derives.name rfl hname).loosen (Nat.zero_le _) fun _ => hstart.not_negates _

/-- A variable that no word of the language hides is shown by its value. -/
theorem concatenation_shows_n :
    Reachable twoFalse ∧ "n".toList ∈ splitParts "\"n =\", n".toList ∧
      (Eval.concatenation "n".toList).run ⟨twoFalse, fun _ => 0, true⟩ 0 =
        (.ok "FALSO".toList, ⟨0, #[]⟩) := by
  have hlist : "n".toList ∈ splitParts "\"n =\", n".toList := by decide
  have hv : (Eval.expression "n".toList).run ⟨twoFalse, fun _ => 0, true⟩ 0 =
      (.ok (.bool false), ⟨0, #[]⟩) := by
    rw [Eval.run_eq_outcome, Eval.outcome_expression_of_parse parse_n,
      Eval.outcome_variable_eq_ok_iff]
    exact ⟨⟨"n".toList, .logical, .bool false⟩, rfl, rfl, rfl⟩
  have hshadows : ∀ w, ¬ twoFalse.Shadows "n".toList w := by
    rintro w ⟨-, ⟨n, hn⟩ | ⟨b, hb⟩⟩
    · cases parse_n.symm.trans hn
    · cases parse_n.symm.trans hb
  refine ⟨reachable_twoFalse, hlist, ?_⟩
  exact (concatenation_shows_value reachable_twoFalse hlist hv).2.1 hshadows

private theorem parse_verdadero : Expr.parse "verdadero".toList = .ok (.bool true) := by
  have htokens : Token.tokensFrom 1 (Text.trim "verdadero".toList) =
      .ok [⟨.word "verdadero".toList, 1⟩] := by decide +kernel
  rw [Grammar.parse_eq_of_scan (scan_of_tokensFrom htokens)]
  rfl

/-- The truth value is the value of the expression, and the variable is what is shown. -/
theorem concatenation_verdadero :
    Reachable twoFalse ∧ "verdadero".toList ∈ splitParts "verdadero".toList ∧
      (Eval.expression "verdadero".toList).run ⟨twoFalse, fun _ => 0, true⟩ 0 =
        (.ok (.bool true), ⟨0, #[]⟩) ∧
      (Value.bool true).display = .ok "VERDADERO".toList ∧
      (Eval.concatenation "verdadero".toList).run ⟨twoFalse, fun _ => 0, true⟩ 0 =
        (.ok "FALSO".toList, ⟨0, #[]⟩) := by
  have hget : twoFalse.get? "verdadero".toList =
      some ⟨"verdadero".toList, .logical, .bool false⟩ := rfl
  have hsplit : splitParts "verdadero".toList = ["verdadero".toList] := by decide
  refine ⟨reachable_twoFalse, hsplit ▸ List.mem_cons_self, ?_, rfl, ?_⟩
  · rw [Eval.run_eq_outcome, Eval.outcome_expression_of_parse parse_verdadero]
    rfl
  · rw [Eval.run_eq_outcome, Eval.outcome_concatenation_of_splitParts hsplit,
      Eval.outcome_part_of_get? (by decide) hget]
    rfl

end Pseudocode.Machine
