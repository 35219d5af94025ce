import Pseudocode.Proofs.Binary64.Rounding
import Pseudocode.Proofs.Block.Labels
import Pseudocode.Proofs.Expr.Conditions
import Pseudocode.Proofs.Run.Inputs
import Pseudocode.Proofs.Store.History

/-!
# The readers of integers

An integer in decimal digits is read in four places: as a token of an expression, as the answer that
an integer variable gets (`Leer`), as a value of a case label, and as a text that is converted to a
number (`convertiranumero`). The token is the integer itself. The other three read a double, and
make a number of it afterwards.

So **the four readers agree on exactly the integers that are doubles** (`integer_readers`). Where
they do not, the last three still give the same integer, the double nearest to the one that was
written, up to the range of doubles. Beyond it, a label and a conversion give infinity, and the
variable gets zero.
-/

namespace Pseudocode

open Binary64

/-! ### Through a double -/

private theorem Binary64.ofRatio_eq_infinity {n d : Nat} (negative : Bool) (hd : 0 < d)
    (h : overflow * d ≤ n) : ofRatio negative n d = infinity negative := by
  have hn : 0 < n := lt_of_lt_of_le (Nat.mul_pos overflow_pos hd) h
  rw [ofRatio_eq negative hn, ofMantissa, if_pos ((overflow_le_iff hn hd).mpr h)]

namespace Number

variable {n : Nat} {k : Int}

/-- A natural number either has a nearest double or lies beyond the range of doubles. -/
private theorem exists_nearest_or_overflow_le (n : Nat) : (∃ k, Nearest n k) ∨ overflow ≤ n := by
  rcases Nat.lt_or_ge n overflow with hlt | hle
  · obtain ⟨-, k, -, -, hk⟩ := exists_ofInt?_nearest (n := n) hlt
    exact .inl ⟨k, hk⟩
  · exact .inr hle

private theorem not_isDouble_of_overflow_le (h : overflow ≤ n) : ¬ IsDouble n := by
  intro hdouble
  obtain ⟨-, -, -, -, hlt⟩ := hdouble.exists_natAbs_eq
  exact absurd hlt (Nat.not_lt.mpr h)

private theorem Nearest.eq_iff (h : Nearest n k) : k = n ↔ IsDouble n := by
  constructor
  · rintro rfl
    exact h.isDouble
  · exact fun hdouble => h.unique hdouble.nearest

/-- The double that digits are read as is the one nearest to their integer. -/
private theorem Nearest.fraction?_toReal (h : Nearest n k) :
    (real (Decimal.toReal false n 0)).fraction? = some (k : ℚ) := by
  obtain ⟨x, hx, hfraction⟩ := h.exists_ofInt?
  rw [ofInt?, Int.natAbs_natCast, decide_eq_false (Int.not_lt.mpr (Int.natCast_nonneg n)),
    ← Decimal.toReal_zero] at hx
  split at hx
  · rw [Option.some.inj hx]
    exact hfraction
  · cases hx

private theorem toReal_of_overflow_le (h : overflow ≤ n) :
    Decimal.toReal false n 0 = infinity false := by
  rw [Decimal.toReal_zero, ofRatio_eq_infinity false one_pos (by rwa [mul_one])]

private theorem ofReal_infinity (negative : Bool) :
    ofReal (infinity negative) = real (infinity negative) := by
  rw [ofReal, form_infinity]

end Number

/-! ### The four readers -/

namespace Text

variable {t : Text}

private theorem IsDigits.isBlank_eq_false (ht : t.IsDigits) {c : Char} (hc : c ∈ t) :
    isBlank c = false :=
  (Bool.not_eq_true' _).mp (ht.forall_mem (p := fun c => !isBlank c) (by decide) c hc)

private theorem IsDigits.trimmed (ht : t.IsDigits) : t.Trimmed :=
  trimmed_of_forall fun _ => ht.isBlank_eq_false

/-- Zeros in front of a natural number are digits, too. -/
private theorem isDigits_zeros_append (zeros n : Nat) :
    IsDigits (List.replicate zeros '0' ++ ofNat n) where
  nonempty := List.append_ne_nil_of_right_ne_nil _ (ofNat_ne_nil n)
  digit c hc := by
    rcases List.mem_append.mp hc with hc | hc
    · rw [List.eq_of_mem_replicate hc]
      decide
    · exact isDigit_of_mem_ofNat hc

end Text

private theorem Decimal.readDigits_zeros_append (zeros n : Nat) :
    readDigits (List.replicate zeros '0' ++ Text.ofNat n) = n := by
  induction zeros with
  | zero => exact readDigits_ofNat n
  | succ zeros ih => exact ih

section Readers

variable {t : Text} (ht : t.IsDigits)

include ht

/-- A token is the integer itself. -/
private theorem scan_of_isDigits (hlength : t.length ≤ Number.maxDigits) :
    scan t = .ok ⟨[⟨.number (.int (Decimal.readDigits t)), 1⟩], t.length + 1⟩ := by
  obtain ⟨c, more, rfl⟩ := List.exists_cons_of_ne_nil ht.nonempty
  have hblank := ht.isBlank_eq_false List.mem_cons_self
  have hlexeme := Token.lexeme_digits Token.parted_nil 1 ht hlength
  rw [List.append_nil] at hlexeme
  rw [scan, ht.trimmed.trim_eq, Token.tokensFrom_of_lexeme hblank hlexeme, Token.tokensFrom]
  rfl

private theorem Numeral.signed?_of_isDigits :
    Numeral.signed? t = some (Decimal.toReal false (Decimal.readDigits t) 0, []) := by
  rw [Numeral.signed?, Decimal.sign_of_isDigits ht]
  simp only [Decimal.unsignedPart_of_isDigits ht]

private theorem Numeral.leading_of_isDigits :
    Numeral.leading t = .ok (some (Decimal.toReal false (Decimal.readDigits t) 0)) := by
  obtain ⟨c, more, rfl⟩ := List.exists_cons_of_ne_nil ht.nonempty
  have hc := Bool.eq_false_iff.mp (ht.isBlank_eq_false List.mem_cons_self)
  rw [Numeral.leading, List.dropWhile_cons_of_neg hc, List.takeWhile_cons_of_neg hc,
    Numeral.signed?_of_isDigits ht]
  rfl

/-- A value of a label. -/
private theorem Cases.labelValues_of_isDigits :
    Cases.labelValues t = [.number (.ofReal (Decimal.toReal false (Decimal.readDigits t) 0))] := by
  have hcomma : ',' ∉ t := by
    intro hmem
    have hp := ht.forall_mem (p := fun c => c != ',') (by decide) _ hmem
    exact absurd hp (by decide)
  rw [Cases.labelValues, Text.splitAt_of_not_mem hcomma, List.map_singleton,
    Cases.labelValue_of_signed? ht.trimmed (ht.forall_mem (by decide))
      (Numeral.signed?_of_isDigits ht)]

/-- A case label of nothing but digits is one case with one value. -/
private theorem Cases.exists_case_of_isDigits {lines : List Line} {start j : Nat} {l : Line}
    (hlevel : Family.segun.AtLevel lines start j) (hl : lines[j]? = some l)
    (htext : l.text = t ++ [':']) :
    ∃ c ∈ (ofLines lines start).cases, c.body.start = j + 1 ∧
      (∀ c' ∈ (ofLines lines start).cases, c'.body.start = j + 1 → c' = c) ∧
      c.values = [.number (.ofReal (Decimal.toReal false (Decimal.readDigits t) 0))] := by
  have hmark : MarkAt lines start j (.values (labelValues t)) := by
    refine markAt_labelLine ht.nonempty ht.trimmed (ht.forall_mem (by decide)) ?_ hlevel hl
      htext
    intro c hc
    exact of_decide_eq_true (ht.forall_mem
      (p := fun c => decide (Text.foldKeyword c ∉ ['s', 'f', 'd'])) (by decide) c
      (List.mem_of_mem_head? hc))
  obtain ⟨c, hc, hvalues, hstart⟩ := markAt_values_iff.mp hmark
  refine ⟨c, hc, hstart, fun c' hc' hstart' => ?_, ?_⟩
  · exact case_eq_of_start_eq hc' hc (hstart'.trans hstart.symm)
  · rw [hvalues, labelValues_of_isDigits ht]

/-- A text that is converted. -/
private theorem Expr.outcome_toNumber_of_isDigits {e : Expr} {scope : Scope} {p q : Progress}
    (he : e.eval.outcome scope p = (.ok (.text t), q)) :
    (Expr.call "convertiranumero".toList [e]).eval.outcome scope p =
      (.ok (.number (.ofReal (Decimal.toReal false (Decimal.readDigits t) 0))), q) := by
  have hargument : (Expr.evalAll [e]).outcome scope p = (.ok [.text t], q) := by
    rw [Expr.evalAll, Eval.outcome_bind_ok he]
    rfl
  have hread : TextFunction.toNumber.apply (.text t) =
      .ok (.number (.ofReal (Decimal.toReal false (Decimal.readDigits t) 0))) := by
    have hplain : (Value.text t).plain = .ok t := rfl
    rw [TextFunction.apply, hplain]
    change TextFunction.readNumber t = _
    rw [TextFunction.readNumber, Numeral.leading_of_isDigits ht]
    rfl
  rw [Expr.eval_call (f := .ofText .toNumber) (by decide) rfl,
    Eval.outcome_bind_ok hargument]
  change (Eval.ofExcept _).outcome scope q = _
  rw [hread, Eval.outcome_ofExcept]

end Readers

namespace Exec

/-- The integer that a variable gets from digits: the one that their double is cut to, or zero if it
is not finite. -/
private theorem coerce_of_isDigits {t : Text} (ht : t.IsDigits) {k : Int}
    (h : (∃ p, form (Decimal.toReal false (Decimal.readDigits t) 0) = .finite p ∧ p.truncate = k) ∨
      form (Decimal.toReal false (Decimal.readDigits t) 0) = .infinite false ∧ k = 0) :
    coerce .integer t = .ok (.int k) := by
  rcases h with ⟨p, hp, rfl⟩ | ⟨hp, rfl⟩
  · simp [coerce, Numeral.leading_of_isDigits ht, hp, bind, Except.bind, pure, Except.pure]
  · simp [coerce, Numeral.leading_of_isDigits ht, hp, bind, Except.bind, pure, Except.pure]

variable {around : Surroundings} {replies : Nat → Reply} {s : RunState} {name answer : Text}
  {v : Variable} {value : Value}

/-- A variable that is asked for has afterwards what the answer stands for, whatever its observer
makes of it. -/
private theorem get?_readInto (hreplies : around.replies = some replies)
    (hanswer : (replies s.prompts.size).outcome = .ok answer) (hv : s.store.get? name = some v)
    (hvalue : coerce v.type answer = .ok value) :
    ((readInto name).run around s).2.store.get? name = some { v with value } := by
  have hask : ∃ t, (ask (promptFor name)).run around s = (.ok answer, t) ∧ t.store = s.store := by
    simp [run_ask, hreplies, hanswer]
  obtain ⟨t, ht, hstore⟩ := hask
  rw [← hstore] at hv
  have hset : ((readInto name).run around s).2.store = t.store.define { v with value } := by
    rw [readInto, run_bind_ok run_get, ← hstore, Store.lookup_eq_ok_iff.mpr hv, ofExcept_ok_bind]
    change ((ask (promptFor name) >>= _ : Exec Unit).run around s).2.store = _
    rw [run_bind_ok ht, hvalue, ofExcept_ok_bind]
    simp only [run_update, Store.apply_set hv, run_notify]
    cases around.notices <;> rfl
  rw [hset, Store.get?_define]
  exact if_pos (Store.key_of_get? hv)

end Exec

/-! ### Where the readers agree -/

open Number in
/-- **Which integers the four readers agree on.** Let `t` be a natural number in decimal digits,
perhaps with zeros in front. It is answered to `Leer` for an integer variable, it stands before the
colon of a case label at the level of a choice, and it is the text that an expression has for its
value. As a token, it is the number that was written. What the variable gets, what the case has and
what the expression is converted to is that number if and only if it is a double. Otherwise it is
the nearest double. Where there is none, the variable gets zero, and the other two are infinite. -/
theorem integer_readers (zeros n : Nat) {t : Text}
    (ht : t = List.replicate zeros '0' ++ Text.ofNat n) (hlength : t.length ≤ maxDigits)
    {around : Surroundings} {replies : Nat → Reply} {s : RunState} {name : Text} {v : Variable}
    (hreplies : around.replies = some replies)
    (hanswer : (replies s.prompts.size).outcome = .ok t) (hv : s.store.get? name = some v)
    (htype : v.type = .integer)
    {lines : List Line} {start j : Nat} {l : Line}
    (hlevel : Family.segun.AtLevel lines start j) (hl : lines[j]? = some l)
    (htext : l.text = t ++ [':'])
    {e : Expr} {scope : Scope} {p q : Progress}
    (he : e.eval.outcome scope p = (.ok (.text t), q)) :
    scan t = .ok ⟨[⟨.number (.int n), 1⟩], t.length + 1⟩ ∧
      ∃ stored label converted : Number,
        ((Exec.readInto name).run around s).2.store.get? name =
          some { v with value := .number stored } ∧
        (∃ c ∈ (Cases.ofLines lines start).cases, c.body.start = j + 1 ∧
          (∀ c' ∈ (Cases.ofLines lines start).cases, c'.body.start = j + 1 → c' = c) ∧
          c.values = [.number label]) ∧
        (Expr.call "convertiranumero".toList [e]).eval.outcome scope p =
          (.ok (.number converted), q) ∧
        (∀ m ∈ [stored, label, converted], m = .int n ↔ IsDouble n) ∧
        (∀ k, Nearest n k → [stored, label, converted] = [.int k, .int k, .int k]) ∧
        (overflow ≤ n → [stored, label, converted] =
          [.int 0, .real (infinity false), .real (infinity false)]) := by
  have hdigits : t.IsDigits := ht ▸ Text.isDigits_zeros_append zeros n
  have hn : Decimal.readDigits t = n := ht ▸ Decimal.readDigits_zeros_append zeros n
  have hscan := scan_of_isDigits hdigits hlength
  have hlabel := Cases.exists_case_of_isDigits hdigits hlevel hl htext
  have hconverted := Expr.outcome_toNumber_of_isDigits hdigits he
  have hcoerce {k : Int} := Exec.coerce_of_isDigits hdigits (k := k)
  rw [hn] at hscan hlabel hconverted hcoerce
  have hstored {k : Int} (hk : Exec.coerce .integer t = .ok (.int k)) :=
    Exec.get?_readInto hreplies hanswer hv (htype ▸ hk)
  refine ⟨hscan, ?_⟩
  rcases exists_nearest_or_overflow_le n with ⟨k, hk⟩ | hover
  · have hfraction := hk.fraction?_toReal
    obtain ⟨parts, hform, hvalue⟩ := fraction?_real_eq_some_iff.mp hfraction
    rw [ofReal_eq_int_iff.mpr hfraction] at hlabel hconverted
    refine ⟨.int k, .int k, .int k, hstored (hcoerce (.inl ⟨parts, hform, ?_⟩)), hlabel, hconverted,
      ?_, ?_, ?_⟩
    · exact Parts.truncate_eq_of_value hvalue
    · simp [hk.eq_iff]
    · intro k' hk'
      rw [hk.unique hk']
    · intro hover
      exact absurd hk.inRange (Nat.not_lt.mpr hover)
  · have hreal := toReal_of_overflow_le hover
    rw [hreal, ofReal_infinity] at hlabel hconverted
    refine ⟨.int 0, .real (infinity false), .real (infinity false),
      hstored (hcoerce (.inr ⟨?_, rfl⟩)), hlabel, hconverted, ?_, ?_, fun _ => rfl⟩
    · rw [hreal, form_infinity]
    · have hpos : (0 : Int) ≠ n := by
        have := overflow_pos
        omega
      simp [not_isDouble_of_overflow_le hover, hpos]
    · intro k hk
      exact absurd hk.inRange (Nat.not_lt.mpr hover)

/-- The start of a run, with an integer variable `x`. -/
def RunState.withInteger : RunState :=
  { RunState.initial with store := Store.empty.define ⟨"x".toList, .integer, .int 0⟩ }

/-- An integer of more than 53 bits that is a double, with zeros in front. -/
theorem integer_readers_double :
    scan "009007199254740994".toList =
        .ok ⟨[⟨.number (.int 9007199254740994), 1⟩], 19⟩ ∧
      ((Exec.readInto "x".toList).run (.scripted .unattended ["009007199254740994".toList])
        .withInteger).2.store.get? "x".toList =
          some ⟨"x".toList, .integer, .int 9007199254740994⟩ ∧
      (∃ c ∈ (Cases.ofLines (Cases.choiceWith "009007199254740994:".toList) 1).cases,
        c.body.start = 5 ∧ c.values = [.int 9007199254740994]) ∧
      (Expr.call "convertiranumero".toList [.text "009007199254740994".toList]).eval.outcome
        ⟨Store.empty, fun _ => 0, true⟩ ⟨0, #[]⟩ = (.ok (.int 9007199254740994), ⟨0, #[]⟩) := by
  have hreplies : (Surroundings.unattended.scripted ["009007199254740994".toList]).replies =
      some fun i => .answer (["009007199254740994".toList].getD i []) := rfl
  have hv : RunState.withInteger.store.get? "x".toList =
      some ⟨"x".toList, .integer, .int 0⟩ := rfl
  have hlevel : Family.segun.AtLevel (Cases.choiceWith "009007199254740994:".toList) 1 4 := by
    decide
  have he : (Expr.text "009007199254740994".toList).eval.outcome ⟨Store.empty, fun _ => 0, true⟩
      ⟨0, #[]⟩ = (.ok (.text "009007199254740994".toList), ⟨0, #[]⟩) := rfl
  obtain ⟨hscan, stored, label, converted, hstored, ⟨c, hc, hstart, -, hvalues⟩, hconverted, hread,
    -, -⟩ := integer_readers 2 9007199254740994 (by decide) (by decide) hreplies rfl hv rfl
      hlevel rfl rfl he
  have hdouble : Number.IsDouble (9007199254740994 : Nat) :=
    Number.ofReal_toReal_eq_int_iff.mp (by decide)
  have hsame (m : Number) (hm : m ∈ [stored, label, converted]) : m = .int 9007199254740994 :=
    (hread m hm).mpr hdouble
  rw [hsame stored (by simp)] at hstored
  rw [hsame label (by simp)] at hvalues
  rw [hsame converted (by simp)] at hconverted
  exact ⟨hscan, hstored, ⟨c, hc, hstart, hvalues⟩, hconverted⟩

/-- **The readers differ on an integer between two doubles.** -/
theorem readers_differ_between_doubles :
    scan "9007199254740993".toList = .ok ⟨[⟨.number (.int 9007199254740993), 1⟩], 17⟩ ∧
      Exec.coerce .integer "9007199254740993".toList = .ok (.int 9007199254740992) ∧
      Cases.labelValues "9007199254740993".toList = [.int 9007199254740992] ∧
      TextFunction.toNumber.apply (.text "9007199254740993".toList) =
        .ok (.int 9007199254740992) := by
  have hdigits : Text.IsDigits "9007199254740993".toList :=
    ⟨by decide, List.all_eq_true.mp (by decide)⟩
  exact ⟨scan_of_isDigits hdigits (by decide), rfl, rfl, rfl⟩

end Pseudocode
