import Pseudocode.Proofs.Expr.Printer
import Pseudocode.Proofs.Expr.Recognition

/-!
# Reading printed expressions

**An expression that is printed and read again is the same expression** (`parse_written`), for every
expression that can be printed and every spelling.

The grammar decides what is read, so it is enough to derive the printed symbols. `Yields p ss e`
says that the phrase `p` derives `e` from tokens with the symbols `ss`, whatever stands behind them.
Derivations may stop short, so nothing has to be said about what comes next, and the rules of the
grammar carry over to rows of symbols one by one.

A place asks for a phrase, and what is printed there is a phrase that binds at least as tightly.
From there one climbs to the phrase of the place, one level at a time (`Derives.loosen`). The only
step that can fail is the one from comparisons to negations, if the symbols start as a negation
does; what binds more tightly than a negation starts with something else, since names are not
reserved (`exists_head_symbols`).
-/

namespace Pseudocode

namespace Grammar

/-! ### From tighter to looser phrases -/

private theorem Phrase.binding_inj {p q : Phrase} (h : p.binding = q.binding) : p = q := by
  rcases p with (_ | _ | _ | _ | _) | _ | _ | _ | _ <;>
    rcases q with (_ | _ | _ | _ | _) | _ | _ | _ | _ <;> simp [binding] at h ⊢

/-- A phrase is also one of the next looser kind. -/
private theorem Derives.exists_looser {p : Phrase} {ts rest : List Token} {e : Expr}
    (h : Derives p ts e rest) (hp : 0 < p.binding)
    (hstart : Phrase.negation.binding < p.binding → ¬ Negates ts) :
    ∃ q : Phrase, q.binding + 1 = p.binding ∧ Derives q ts e rest := by
  cases p with
  | level l =>
    cases l with
    | disjunction => cases hp
    | conjunction => exact ⟨.level .disjunction, rfl, .operand h⟩
    | comparison => exact ⟨.negation, rfl, .compare (hstart (by decide)) h⟩
    | sum => exact ⟨.level .comparison, rfl, .operand h⟩
    | product => exact ⟨.level .sum, rfl, .operand h⟩
  | negation => exact ⟨.level .conjunction, rfl, .operand h⟩
  | signed => exact ⟨.level .product, rfl, .operand h⟩
  | power => exact ⟨.signed, rfl, .unsigned h⟩
  | term => exact ⟨.power, rfl, .base h⟩

/-- A phrase is also one of every looser kind. -/
theorem Derives.loosen {p q : Phrase} {ts rest : List Token} {e : Expr} (h : Derives p ts e rest)
    (hq : q.binding ≤ p.binding) (hstart : Phrase.negation.binding < p.binding → ¬ Negates ts) :
    Derives q ts e rest := by
  obtain ⟨n, hn⟩ : ∃ n, n = p.binding - q.binding := ⟨_, rfl⟩
  induction n generalizing p with
  | zero =>
    obtain rfl : p = q := Phrase.binding_inj (by omega)
    exact h
  | succ n ih =>
    obtain ⟨p', hp', h'⟩ := h.exists_looser (by omega) hstart
    exact ih h' (by omega) (fun hlt => hstart (by omega)) (by omega)

/-! ### Rows of symbols that a phrase derives -/

/-- The phrase derives the expression from tokens with these symbols, whatever is behind them. -/
def Yields (p : Phrase) (ss : List Symbol) (e : Expr) : Prop :=
  ∀ (ts rest : List Token), ts.map (·.symbol) = ss → Derives p (ts ++ rest) e rest

/-- A symbol that does not start a negation. -/
def StartsPlain (s : Symbol) : Prop :=
  s ≠ .operator .tilde ∧ ¬ IsWord "no" s ∧ ¬ IsWord "not" s

/-- What is no tilde and no word starts no negation. -/
theorem StartsPlain.of_ne {s : Symbol} (htilde : s ≠ .operator .tilde)
    (hword : ∀ name, s ≠ .word name) : StartsPlain s :=
  ⟨htilde, fun ⟨name, hs, _⟩ => hword name hs, fun ⟨name, hs, _⟩ => hword name hs⟩

/-- A word other than those of the negation starts no negation. -/
theorem StartsPlain.word {name : Text} (hno : name.lower ≠ "no".toList)
    (hnot : name.lower ≠ "not".toList) : StartsPlain (.word name) := by
  refine ⟨nofun, ?_, ?_⟩
  · rintro ⟨_, ⟨⟩, hlower⟩
    exact hno hlower
  · rintro ⟨_, ⟨⟩, hlower⟩
    exact hnot hlower

/-- What starts plainly is not negated. -/
theorem StartsPlain.not_negates {t : Token} (h : StartsPlain t.symbol) (ts : List Token) :
    ¬ Negates (t :: ts) := by
  obtain ⟨htilde, hno, hnot⟩ := h
  rintro (ht | ⟨hw, -⟩)
  · exact htilde ht
  · exact hw.elim hno hnot

namespace Yields

variable {p q : Phrase} {ss ss' : List Symbol} {s : Symbol} {e left right index : Expr}

/-- **What binds more tightly may stand where less is asked for**, unless it would be read as a
negation there. -/
theorem loosen (h : Yields p ss e) (hq : q.binding ≤ p.binding)
    (hstart : Phrase.negation.binding < p.binding → ∃ s ∈ ss.head?, StartsPlain s) :
    Yields q ss e := by
  intro ts rest hts
  refine (h ts rest hts).loosen hq fun hlt => ?_
  obtain ⟨s, hs, hplain⟩ := hstart hlt
  subst hts
  cases ts with
  | nil => cases hs
  | cons t ts =>
    obtain rfl : t.symbol = s := by simpa using hs
    exact hplain.not_negates _

/-- A term of one symbol. -/
private theorem single
    (h : ∀ (t : Token) (rest : List Token), t.symbol = s → Derives .term (t :: rest) e rest) :
    Yields .term [s] e := by
  intro ts rest hts
  obtain ⟨t, rfl, ht⟩ := List.map_eq_singleton_iff.mp hts
  exact h t rest ht

private theorem parenthesized (h : Yields (.level .disjunction) ss e) :
    Yields .term (.paren true :: (ss ++ [.paren false])) e := by
  intro ts rest hts
  obtain ⟨t, ts, rfl, ht, hts⟩ := List.map_eq_cons_iff.mp hts
  obtain ⟨inner, last, rfl, hinner, hlast⟩ := List.map_eq_append_iff.mp hts
  obtain ⟨v, rfl, hv⟩ := List.map_eq_singleton_iff.mp hlast
  simp only [List.cons_append, List.append_assoc, List.nil_append]
  exact .parenthesized ht (h inner (v :: rest) hinner) hv

private theorem element {name : Text} (hname : IsName name)
    (h : Yields (.level .disjunction) ss index) :
    Yields .term (.word name :: .bracket true :: (ss ++ [.bracket false]))
      (.element name index) := by
  intro ts rest hts
  obtain ⟨t, ts, rfl, ht, hts⟩ := List.map_eq_cons_iff.mp hts
  obtain ⟨u, ts, rfl, hu, hts⟩ := List.map_eq_cons_iff.mp hts
  obtain ⟨inner, last, rfl, hinner, hlast⟩ := List.map_eq_append_iff.mp hts
  obtain ⟨v, rfl, hv⟩ := List.map_eq_singleton_iff.mp hlast
  simp only [List.cons_append, List.append_assoc, List.nil_append]
  exact .element ht hname hu (h inner (v :: rest) hinner) hv

private theorem join {l : Level} (hleft : Yields (.level l) ss left) (hs : Joins left right l s e)
    (hright : Yields (operand l) ss' right) : Yields (.level l) (ss ++ s :: ss') e := by
  intro ts rest hts
  obtain ⟨before, behind, rfl, hbefore, hbehind⟩ := List.map_eq_append_iff.mp hts
  obtain ⟨t, after, rfl, ht, hafter⟩ := List.map_eq_cons_iff.mp hbehind
  rw [List.append_assoc, List.cons_append]
  exact .join (hleft before _ hbefore) (ht ▸ hs) (hright after rest hafter)

private theorem raise (hleft : Yields .term ss left)
    (hs : s = .operator .caret ∨ s = .operator .starStar) (hright : Yields .signed ss' right) :
    Yields .power (ss ++ s :: ss') (.binary .power left right) := by
  intro ts rest hts
  obtain ⟨before, behind, rfl, hbefore, hbehind⟩ := List.map_eq_append_iff.mp hts
  obtain ⟨t, after, rfl, ht, hafter⟩ := List.map_eq_cons_iff.mp hbehind
  rw [List.append_assoc, List.cons_append]
  exact .raise (hleft before _ hbefore) (ht ▸ hs) (hright after rest hafter)

/-- An operator before an operand. A word for a negation is one, since operands start with symbols
that can start an operand. -/
private theorem unary {op : UnaryOp} (hs : op.IsSpelled s) (h : Yields op.phrase ss e) :
    Yields op.phrase (s :: ss) (.unary op e) := by
  intro ts rest hts
  obtain ⟨t, ts, rfl, ht, hts⟩ := List.map_eq_cons_iff.mp hts
  have hrest := h ts rest hts
  cases op with
  | negate => exact .minus (ht.trans hs) hrest
  | keep => exact .plus (ht.trans hs) hrest
  | not =>
    obtain ⟨u, more, hmore, hu⟩ := hrest.head
    refine .negate ?_ hrest
    rcases hs with hs | hs
    · exact .tilde (ht.trans hs)
    · change Negates (t :: (ts ++ rest))
      rw [hmore]
      exact .word (ht ▸ hs) hu

end Yields

/-- The arguments that tokens with these symbols give, with a closing parenthesis behind them. -/
def YieldsArguments (ss : List Symbol) (es : List Expr) : Prop :=
  ∀ (ts rest : List Token), ts.map (·.symbol) = ss ++ [.paren false] →
    DerivesArguments (ts ++ rest) es rest

private theorem YieldsArguments.last {ss : List Symbol} {e : Expr}
    (h : Yields (.level .disjunction) ss e) :
    YieldsArguments ss [e] := by
  intro ts rest hts
  obtain ⟨inner, last, rfl, hinner, hlast⟩ := List.map_eq_append_iff.mp hts
  obtain ⟨v, rfl, hv⟩ := List.map_eq_singleton_iff.mp hlast
  rw [List.append_assoc]
  exact .last (h inner _ hinner) hv

private theorem YieldsArguments.more {ss ss' : List Symbol} {e : Expr} {es : List Expr}
    (h : Yields (.level .disjunction) ss e) (hes : YieldsArguments ss' es) :
    YieldsArguments (ss ++ .comma :: ss') (e :: es) := by
  intro ts rest hts
  rw [List.append_assoc, List.cons_append] at hts
  obtain ⟨before, behind, rfl, hbefore, hbehind⟩ := List.map_eq_append_iff.mp hts
  obtain ⟨t, after, rfl, ht, hafter⟩ := List.map_eq_cons_iff.mp hbehind
  rw [List.append_assoc, List.cons_append]
  exact .more (h before _ hbefore) ht (hes after rest hafter)

private theorem Yields.call {ss : List Symbol} {name : Text} {es : List Expr} (hname : IsName name)
    (hlower : name.lower = name) (h : YieldsArguments ss es) :
    Yields .term (.word name :: .paren true :: (ss ++ [.paren false])) (.call name es) := by
  intro ts rest hts
  obtain ⟨t, ts, rfl, ht, hts⟩ := List.map_eq_cons_iff.mp hts
  obtain ⟨u, ts, rfl, hu, hts⟩ := List.map_eq_cons_iff.mp hts
  have hcall := Derives.call ht hname hu (h ts rest hts)
  rwa [hlower] at hcall

private theorem Yields.callNone {name : Text} (hname : IsName name) (hlower : name.lower = name) :
    Yields .term [.word name, .paren true, .paren false] (.call name []) := by
  intro ts rest hts
  obtain ⟨t, ts, rfl, ht, hts⟩ := List.map_eq_cons_iff.mp hts
  obtain ⟨u, ts, rfl, hu, hts⟩ := List.map_eq_cons_iff.mp hts
  obtain ⟨v, rfl, hv⟩ := List.map_eq_singleton_iff.mp hts
  have hcall : Derives .term (t :: u :: v :: rest) _ rest := .callNone ht hname hu hv
  rwa [hlower] at hcall

end Grammar

open Grammar

/-! ### Names -/

section FreeName

variable {name : Text} (h : name.isFreeName = true)
include h

private theorem Text.lower_ne_of_isFreeName {w : String} (hw : w ∈ reservedWords) :
    name.lower ≠ w.toList := by
  simp only [Text.isFreeName, Bool.and_eq_true, List.all_eq_true] at h
  exact bne_iff_ne.mp (h.2 w hw)

private theorem isName_of_isFreeName : IsName name :=
  ⟨Text.lower_ne_of_isFreeName h (by decide), Text.lower_ne_of_isFreeName h (by decide)⟩

private theorem startsPlain_of_isFreeName : StartsPlain (.word name) :=
  .word (Text.lower_ne_of_isFreeName h (by decide)) (Text.lower_ne_of_isFreeName h (by decide))

private theorem isWritable_of_isFreeName : (Symbol.word name).isWritable = true :=
  (Bool.and_eq_true_iff.mp h).1

end FreeName

/-! ### What printed expressions start with -/

private theorem startsPlain_truth (sp : Spelling) (b : Bool) :
    StartsPlain (.word (sp.truth b)) := by
  refine .word ?_ ?_
  all_goals
    rw [sp.truth_lower]
    cases b <;> decide

private theorem exists_head_enclosed {place : Phrase} {e : Expr} {ss : List Symbol}
    (hplace : Phrase.negation.binding < place.binding)
    (h : Phrase.negation.binding < e.phrase.binding → ∃ s ∈ ss.head?, StartsPlain s) :
    ∃ s ∈ (enclosed place e ss).head?, StartsPlain s := by
  rw [enclosed]
  split
  · exact ⟨.paren true, rfl, .of_ne nofun nofun⟩
  · exact h (by omega)

private theorem exists_head_append {ss : List Symbol} (h : ∃ s ∈ ss.head?, StartsPlain s)
    (ss' : List Symbol) : ∃ s ∈ (ss ++ ss').head?, StartsPlain s := by
  obtain ⟨s, hs, hplain⟩ := h
  refine ⟨s, ?_, hplain⟩
  rw [List.head?_append, Option.mem_def.mp hs]
  rfl

/-- What binds more tightly than a negation does not start as a negation does. -/
theorem exists_head_symbols (sp : Spelling) : ∀ e : Expr, e.isPrintable = true →
    Phrase.negation.binding < e.phrase.binding → ∃ s ∈ (e.symbols sp).head?, StartsPlain s
  | .number _, _, _ => ⟨_, rfl, .of_ne nofun nofun⟩
  | .text _, _, _ => ⟨_, rfl, .of_ne nofun nofun⟩
  | .bool b, _, _ => ⟨_, rfl, startsPlain_truth sp b⟩
  | .variable _, he, _ => ⟨_, rfl, startsPlain_of_isFreeName he⟩
  | .element _ _, he, _ => ⟨_, rfl, startsPlain_of_isFreeName (Bool.and_eq_true_iff.mp he).1⟩
  | .call _ _, he, _ => by
    simp only [Expr.isPrintable, Bool.and_eq_true] at he
    exact ⟨_, rfl, startsPlain_of_isFreeName he.1.1⟩
  | .unary op _, _, hphrase => by
    cases op with
    | not => cases Nat.lt_irrefl _ hphrase
    | negate =>
      rw [Expr.symbols, show sp.unary .negate = .operator .minus from sp.unary_isSpelled .negate]
      exact ⟨_, rfl, .of_ne nofun nofun⟩
    | keep =>
      rw [Expr.symbols, show sp.unary .keep = .operator .plus from sp.unary_isSpelled .keep]
      exact ⟨_, rfl, .of_ne nofun nofun⟩
  | .binary op left _, he, _ => by
    rw [Expr.symbols]
    have hplace : Phrase.negation.binding < op.leftPlace.binding := by cases op <;> decide
    have hleft := exists_head_symbols sp left (Bool.and_eq_true_iff.mp he).1
    exact exists_head_append (exists_head_enclosed hplace hleft) _
  | .logic op _ _, _, hphrase => by
    have hloose : (Phrase.level op.level).binding ≤ Phrase.negation.binding := by
      cases op <;> decide
    exact absurd hphrase (Nat.not_lt.mpr hloose)

/-! ### What printed expressions are read as -/

section Place

variable {sp : Spelling} {e : Expr} (he : e.isPrintable = true)
  (h : Yields e.phrase (e.symbols sp) e)
include he h

/-- Printed in its place, an expression is the phrase that the place asks for. -/
private theorem yields_enclosed (place : Phrase) :
    Yields place (enclosed place e (e.symbols sp)) e := by
  have hloosen {q : Phrase} (hq : q.binding ≤ e.phrase.binding) : Yields q (e.symbols sp) e :=
    h.loosen hq (exists_head_symbols sp e he)
  rw [enclosed]
  split
  · refine (hloosen (Nat.zero_le _)).parenthesized.loosen ?_ fun _ => ?_
    · cases place with
      | level l => cases l <;> decide
      | negation | signed | power | term => decide
    · exact ⟨.paren true, rfl, .of_ne nofun nofun⟩
  · exact hloosen (by omega)

/-- Where any expression may stand, there are no parentheses. -/
private theorem yields_disjunction : Yields (.level .disjunction) (e.symbols sp) e :=
  h.loosen (Nat.zero_le _) (exists_head_symbols sp e he)

end Place

mutual

/-- The symbols of an expression are a phrase of its kind, and the grammar derives the expression
from them. -/
private theorem yields_symbols (sp : Spelling) : ∀ e : Expr, e.isPrintable = true →
    Yields e.phrase (e.symbols sp) e
  | .number _, _ => .single fun _ _ ht => .number ht
  | .text _, _ => .single fun _ _ ht => .string ht
  | .bool true, _ => .single fun _ _ ht => .verdadero ⟨_, ht, sp.truth_lower true⟩
  | .bool false, _ => .single fun _ _ ht => .falso ⟨_, ht, sp.truth_lower false⟩
  | .variable _, he => .single fun _ _ ht => .name ht (isName_of_isFreeName he)
  | .element _ index, he => by
    obtain ⟨hname, hindex⟩ := Bool.and_eq_true_iff.mp he
    exact .element (isName_of_isFreeName hname)
      (yields_disjunction hindex (yields_symbols sp index hindex))
  | .unary op e, he => by
    have he : e.isPrintable = true := he
    exact .unary (sp.unary_isSpelled op) (yields_enclosed he (yields_symbols sp e he) op.phrase)
  | .binary op left right, he => by
    obtain ⟨hleft, hright⟩ := Bool.and_eq_true_iff.mp he
    have hleft := yields_enclosed hleft (yields_symbols sp left hleft) op.leftPlace
    have hright := yields_enclosed hright (yields_symbols sp right hright) op.rightPlace
    have hs := sp.binary_isSpelled op
    -- a power asks for other phrases than the operators of a level do
    cases op with
    | power => exact hleft.raise hs hright
    | _ => exact hleft.join (hs left right) hright
  | .logic op left right, he => by
    obtain ⟨hleft, hright⟩ := Bool.and_eq_true_iff.mp he
    exact (yields_enclosed hleft (yields_symbols sp left hleft) _).join
      (sp.logic_isSpelled op left right) (yields_enclosed hright (yields_symbols sp right hright) _)
  | .call _ [], he => by
    simp only [Expr.isPrintable, Bool.and_eq_true, beq_iff_eq] at he
    exact .callNone (isName_of_isFreeName he.1.1) he.1.2
  | .call _ (e :: es), he => by
    simp only [Expr.isPrintable, Bool.and_eq_true, beq_iff_eq] at he
    obtain ⟨⟨hname, hlower⟩, harguments⟩ := he
    exact .call (isName_of_isFreeName hname) hlower
      (yieldsArguments_symbols sp (e :: es) (by simp) harguments)

private theorem yieldsArguments_symbols (sp : Spelling) : ∀ es : List Expr, es ≠ [] →
    Expr.areAllPrintable es = true → YieldsArguments (Expr.symbolsOfAll sp es) es
  | [], hne, _ => absurd rfl hne
  | [e], _, hes => by
    obtain ⟨he, -⟩ := Bool.and_eq_true_iff.mp hes
    exact .last (yields_disjunction he (yields_symbols sp e he))
  | e :: e' :: es, _, hes => by
    obtain ⟨he, hes⟩ := Bool.and_eq_true_iff.mp hes
    exact .more (yields_disjunction he (yields_symbols sp e he))
      (yieldsArguments_symbols sp (e' :: es) (by simp) hes)

end

/-! ### The way back -/

private theorem isWritable_of_mem_enclosed {place : Phrase} {e : Expr} {ss : List Symbol}
    (h : ∀ s ∈ ss, s.isWritable = true) : ∀ s ∈ enclosed place e ss, s.isWritable = true := by
  intro s hs
  rw [enclosed] at hs
  split at hs
  · simp only [List.mem_cons, List.mem_append, List.not_mem_nil, or_false] at hs
    rcases hs with rfl | hs | rfl
    · rfl
    · exact h s hs
    · rfl
  · exact h s hs

mutual

/-- All symbols of an expression can be written. -/
private theorem isWritable_of_mem_symbols (sp : Spelling) : ∀ e : Expr, e.isPrintable = true →
    ∀ s ∈ e.symbols sp, s.isWritable = true
  | .number _, he | .text _, he => List.forall_mem_singleton.mpr he
  | .bool b, _ => List.forall_mem_singleton.mpr (sp.truth_isIdentifier b)
  | .variable _, he => List.forall_mem_singleton.mpr (isWritable_of_isFreeName he)
  | .element _ index, he => by
    obtain ⟨hname, hindex⟩ := Bool.and_eq_true_iff.mp he
    simp only [Expr.symbols, List.forall_mem_cons, List.forall_mem_append]
    exact ⟨isWritable_of_isFreeName hname, rfl, isWritable_of_mem_symbols sp index hindex, rfl,
      nofun⟩
  | .unary op e, he => by
    simp only [Expr.symbols, List.forall_mem_cons]
    exact ⟨sp.unary_isWritable op, isWritable_of_mem_enclosed (isWritable_of_mem_symbols sp e he)⟩
  | .binary op left right, he => by
    obtain ⟨hleft, hright⟩ := Bool.and_eq_true_iff.mp he
    simp only [Expr.symbols, List.forall_mem_cons, List.forall_mem_append]
    exact ⟨isWritable_of_mem_enclosed (isWritable_of_mem_symbols sp left hleft),
      sp.binary_isWritable op,
      isWritable_of_mem_enclosed (isWritable_of_mem_symbols sp right hright)⟩
  | .logic op left right, he => by
    obtain ⟨hleft, hright⟩ := Bool.and_eq_true_iff.mp he
    simp only [Expr.symbols, List.forall_mem_cons, List.forall_mem_append]
    exact ⟨isWritable_of_mem_enclosed (isWritable_of_mem_symbols sp left hleft),
      sp.logic_isWritable op,
      isWritable_of_mem_enclosed (isWritable_of_mem_symbols sp right hright)⟩
  | .call _ arguments, he => by
    simp only [Expr.isPrintable, Bool.and_eq_true] at he
    simp only [Expr.symbols, List.forall_mem_cons, List.forall_mem_append]
    exact ⟨isWritable_of_isFreeName he.1.1, rfl,
      isWritable_of_mem_symbolsOfAll sp arguments he.2, rfl, nofun⟩

private theorem isWritable_of_mem_symbolsOfAll (sp : Spelling) : ∀ es : List Expr,
    Expr.areAllPrintable es = true → ∀ s ∈ Expr.symbolsOfAll sp es, s.isWritable = true
  | [], _ => nofun
  | [e], hes => isWritable_of_mem_symbols sp e (Bool.and_eq_true_iff.mp hes).1
  | e :: e' :: es, hes => by
    obtain ⟨he, hes⟩ := Bool.and_eq_true_iff.mp hes
    simp only [Expr.symbolsOfAll, List.forall_mem_cons, List.forall_mem_append]
    exact ⟨isWritable_of_mem_symbols sp e he, rfl,
      isWritable_of_mem_symbolsOfAll sp (e' :: es) hes⟩

end

/-- **Printing and reading are inverse.** Whatever the spelling, an expression that can be printed
is read back from its printed form. -/
theorem parse_written (sp : Spelling) (e : Expr) (he : e.isPrintable = true) :
    Expr.parse (e.written sp) = .ok e := by
  obtain ⟨scanned, hscan, hsymbols⟩ :=
    exists_scan_written (isWritable_of_mem_symbols sp e he)
  have hderives : Derives (.level .disjunction) scanned.tokens e [] := by
    have := yields_disjunction he (yields_symbols sp e he) scanned.tokens [] hsymbols
    rwa [List.append_nil] at this
  rw [Expr.written, parse_eq_of_scan hscan, ofTokens_eq_ok_iff.mpr hderives]
  rfl

/-- Operands that need parentheses and operands that do not, on both sides of their operators. -/
def Expr.mixed : Expr :=
  .logic .and
    (.unary .not (.binary .less (.variable "x".toList) (.number (.int 12))))
    (.binary .equal
      (.logic .or (.variable "y1".toList) (.bool true))
      (.binary .multiply
        (.unary .negate
          (.binary .power (.number (.int 2)) (.unary .negate (.variable "_n".toList))))
        (.binary .subtract
          (.call "f".toList [.text "a, b".toList, .unary .not (.call "azar".toList [])])
          (.element "v".toList (.binary .modulo (.variable "i".toList) (.number (.int 0)))))))

/-- An expression with every kind of phrase, written with words. -/
theorem parse_mixed :
    Expr.mixed.isPrintable = true ∧
      Expr.mixed.written .wordy =
        ("NO x < 12 Y ( y1 O VERDADERO ) = - 2 ^ - _n * " ++
          "( f ( \"a, b\" , NO azar ( ) ) - v [ i mod 0 ] )").toList ∧
      Expr.parse (Expr.mixed.written .wordy) = .ok Expr.mixed := by
  have he : Expr.mixed.isPrintable = true := by decide
  exact ⟨he, by decide, parse_written .wordy Expr.mixed he⟩

end Pseudocode
