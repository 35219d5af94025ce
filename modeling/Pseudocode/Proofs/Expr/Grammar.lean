import Pseudocode.Expr.Parser

/-!
# The grammar of expressions

The grammar as derivation rules over lists of tokens, with no reader in sight. A phrase derives a
tree from the front of a list of tokens and leaves the rest, `Derives phrase ts e rest`; an
expression is a disjunction that leaves nothing. In the usual notation, from the loosest to the
tightest level:

* `or := or (O | or | '|') and | and`, and in the same way `and`, `cmp`, `add` and `mul`: a level is
  an operand of the level, or the level followed by one of its operators (`Level.Joins`) and another
  operand, so that **operators of one level group to the left**;
* `not := ~ not | (NO | not) not | cmp`, where the word negates exactly if the next token can start
  an operand, also beyond the end of the phrase, and `cmp` is for all other cases (`Negates`);
* `unary := - unary | + unary | power` and `power := term (^ | **) unary | term`;
* `term := number | string | VERDADERO | FALSO | name | name [ or ] | name ( args ) | ( or )`.

Words that are operators are also names: what they are depends on where they stand. A rule may stop
short of what a reader would take in, so that the rules as they stand do not say which derivation is
to be found; that there is only one for a whole list of tokens is a theorem about them.
-/

namespace Pseudocode

namespace Grammar

/-- The kinds of phrases. -/
inductive Phrase where
  | level (l : Level)
  | negation
  | signed
  | power
  | term
deriving DecidableEq

/-- The operands of a level. -/
def operand : Level → Phrase
  | .disjunction => .level .conjunction
  | .conjunction => .negation
  | .comparison => .level .sum
  | .sum => .level .product
  | .product => .signed

/-- The symbol is the given word, in whatever case. -/
def IsWord (word : String) (s : Symbol) : Prop := ∃ name, s = .word name ∧ name.lower = word.toList

/-- The operators of a level, and what each makes of the operands before and behind it. -/
inductive Joins (a b : Expr) : Level → Symbol → Expr → Prop where
  | o {s : Symbol} : IsWord "o" s → Joins a b .disjunction s (.logic .or a b)
  | or {s : Symbol} : IsWord "or" s → Joins a b .disjunction s (.logic .or a b)
  | bar : Joins a b .disjunction (.operator .bar) (.logic .or a b)
  | y {s : Symbol} : IsWord "y" s → Joins a b .conjunction s (.logic .and a b)
  | and {s : Symbol} : IsWord "and" s → Joins a b .conjunction s (.logic .and a b)
  | ampersand : Joins a b .conjunction (.operator .ampersand) (.logic .and a b)
  | equal : Joins a b .comparison (.operator .equal) (.binary .equal a b)
  | equalEqual : Joins a b .comparison (.operator .equalEqual) (.binary .equal a b)
  | lessGreater : Joins a b .comparison (.operator .lessGreater) (.binary .unequal a b)
  | bangEqual : Joins a b .comparison (.operator .bangEqual) (.binary .unequal a b)
  | less : Joins a b .comparison (.operator .less) (.binary .less a b)
  | lessEqual : Joins a b .comparison (.operator .lessEqual) (.binary .lessEqual a b)
  | greater : Joins a b .comparison (.operator .greater) (.binary .greater a b)
  | greaterEqual : Joins a b .comparison (.operator .greaterEqual) (.binary .greaterEqual a b)
  | plus : Joins a b .sum (.operator .plus) (.binary .add a b)
  | minus : Joins a b .sum (.operator .minus) (.binary .subtract a b)
  | star : Joins a b .product (.operator .star) (.binary .multiply a b)
  | slash : Joins a b .product (.operator .slash) (.binary .divide a b)
  | percent : Joins a b .product (.operator .percent) (.binary .modulo a b)
  | mod {s : Symbol} : IsWord "mod" s → Joins a b .product s (.binary .modulo a b)

/-- The symbols that can start an operand: a number, a string, a word, an opening parenthesis, a
sign or a tilde. -/
inductive StartsOperand : Symbol → Prop where
  | number (n : Number) : StartsOperand (.number n)
  | string (content : Text) : StartsOperand (.string content)
  | word (name : Text) : StartsOperand (.word name)
  | paren : StartsOperand (.paren true)
  | minus : StartsOperand (.operator .minus)
  | plus : StartsOperand (.operator .plus)
  | tilde : StartsOperand (.operator .tilde)

/-- The tokens start with a negation: a tilde, or a word for it before what can start an operand. -/
inductive Negates : List Token → Prop where
  | tilde {t : Token} {ts : List Token} : t.symbol = .operator .tilde → Negates (t :: ts)
  | word {t u : Token} {ts : List Token} : IsWord "no" t.symbol ∨ IsWord "not" t.symbol →
      StartsOperand u.symbol → Negates (t :: u :: ts)

/-- A word that is not a truth value. -/
def IsName (name : Text) : Prop :=
  name.lower ≠ "verdadero".toList ∧ name.lower ≠ "falso".toList

mutual

/-- What a phrase derives from the front of a list of tokens, and the rest that it leaves. -/
inductive Derives : Phrase → List Token → Expr → List Token → Prop where
  | operand {l : Level} {ts rest : List Token} {e : Expr} :
      Derives (operand l) ts e rest → Derives (.level l) ts e rest
  | join {l : Level} {ts mid rest : List Token} {t : Token} {left right e : Expr} :
      Derives (.level l) ts left (t :: mid) → Joins left right l t.symbol e →
      Derives (Grammar.operand l) mid right rest → Derives (.level l) ts e rest
  | negate {t : Token} {ts rest : List Token} {e : Expr} :
      Negates (t :: ts) → Derives .negation ts e rest →
      Derives .negation (t :: ts) (.unary .not e) rest
  | compare {ts rest : List Token} {e : Expr} :
      ¬ Negates ts → Derives (.level .comparison) ts e rest → Derives .negation ts e rest
  | minus {t : Token} {ts rest : List Token} {e : Expr} :
      t.symbol = .operator .minus → Derives .signed ts e rest →
      Derives .signed (t :: ts) (.unary .negate e) rest
  | plus {t : Token} {ts rest : List Token} {e : Expr} :
      t.symbol = .operator .plus → Derives .signed ts e rest →
      Derives .signed (t :: ts) (.unary .keep e) rest
  | unsigned {ts rest : List Token} {e : Expr} :
      Derives .power ts e rest → Derives .signed ts e rest
  | raise {ts mid rest : List Token} {t : Token} {base exponent : Expr} :
      Derives .term ts base (t :: mid) →
      t.symbol = .operator .caret ∨ t.symbol = .operator .starStar →
      Derives .signed mid exponent rest → Derives .power ts (.binary .power base exponent) rest
  | base {ts rest : List Token} {e : Expr} :
      Derives .term ts e rest → Derives .power ts e rest
  | number {t : Token} {rest : List Token} {n : Number} :
      t.symbol = .number n → Derives .term (t :: rest) (.number n) rest
  | string {t : Token} {rest : List Token} {content : Text} :
      t.symbol = .string content → Derives .term (t :: rest) (.text content) rest
  | verdadero {t : Token} {rest : List Token} :
      IsWord "verdadero" t.symbol → Derives .term (t :: rest) (.bool true) rest
  | falso {t : Token} {rest : List Token} :
      IsWord "falso" t.symbol → Derives .term (t :: rest) (.bool false) rest
  | name {t : Token} {rest : List Token} {name : Text} :
      t.symbol = .word name → IsName name → Derives .term (t :: rest) (.variable name) rest
  | element {t u v : Token} {ts rest : List Token} {name : Text} {index : Expr} :
      t.symbol = .word name → IsName name → u.symbol = .bracket true →
      Derives (.level .disjunction) ts index (v :: rest) → v.symbol = .bracket false →
      Derives .term (t :: u :: ts) (.element name index) rest
  | callNone {t u v : Token} {rest : List Token} {name : Text} :
      t.symbol = .word name → IsName name → u.symbol = .paren true → v.symbol = .paren false →
      Derives .term (t :: u :: v :: rest) (.call name.lower []) rest
  | call {t u : Token} {ts rest : List Token} {name : Text} {arguments : List Expr} :
      t.symbol = .word name → IsName name → u.symbol = .paren true →
      DerivesArguments ts arguments rest →
      Derives .term (t :: u :: ts) (.call name.lower arguments) rest
  | parenthesized {t v : Token} {ts rest : List Token} {e : Expr} :
      t.symbol = .paren true → Derives (.level .disjunction) ts e (v :: rest) →
      v.symbol = .paren false → Derives .term (t :: ts) e rest

/-- One or more arguments with commas between them and a closing parenthesis behind them. -/
inductive DerivesArguments : List Token → List Expr → List Token → Prop where
  | last {ts rest : List Token} {v : Token} {e : Expr} :
      Derives (.level .disjunction) ts e (v :: rest) → v.symbol = .paren false →
      DerivesArguments ts [e] rest
  | more {ts mid rest : List Token} {v : Token} {e : Expr} {es : List Expr} :
      Derives (.level .disjunction) ts e (v :: mid) → v.symbol = .comma →
      DerivesArguments mid es rest → DerivesArguments ts (e :: es) rest

end

/-! ### Where phrases start and that they take something in -/

mutual

/-- A phrase takes in at least one token. -/
theorem Derives.length_lt {p : Phrase} {ts rest : List Token} {e : Expr} :
    Derives p ts e rest → rest.length < ts.length
  | .operand h => h.length_lt
  | .compare _ h => h.length_lt
  | .unsigned h => h.length_lt
  | .base h => h.length_lt
  | .join h _ h' | .raise h _ h' => by
    have := h.length_lt
    have := h'.length_lt
    simp only [List.length_cons] at *
    omega
  | .negate _ h | .minus _ h | .plus _ h => Nat.lt_succ_of_lt h.length_lt
  | .number _ | .string _ | .verdadero _ | .falso _ | .name _ _ => Nat.lt_succ_self _
  | .element _ _ _ h _ | .parenthesized _ h _ => by
    have := h.length_lt
    simp only [List.length_cons] at *
    omega
  | .callNone _ _ _ _ => by simp only [List.length_cons]; omega
  | .call _ _ _ h => by
    have := h.length_lt
    simp only [List.length_cons]
    omega

/-- Arguments take in at least one token. -/
private theorem DerivesArguments.length_lt {ts rest : List Token} {es : List Expr} :
    DerivesArguments ts es rest → rest.length < ts.length
  | .last h _ => Nat.lt_of_succ_lt h.length_lt
  | .more h _ h' => by
    have := h.length_lt
    have := h'.length_lt
    simp only [List.length_cons] at *
    omega

end

/-- Every phrase starts with a symbol that can start an operand. -/
theorem Derives.head {p : Phrase} {ts rest : List Token} {e : Expr} :
    Derives p ts e rest → ∃ t more, ts = t :: more ∧ StartsOperand t.symbol
  | .operand h | .join h _ _ | .compare _ h | .unsigned h | .raise h _ _ | .base h => h.head
  | .negate (.tilde ht) _ => ⟨_, _, rfl, ht ▸ .tilde⟩
  | .negate (.word hw _) _ => by
    rcases hw with ⟨name, hname, -⟩ | ⟨name, hname, -⟩ <;> exact ⟨_, _, rfl, hname ▸ .word _⟩
  | .minus ht _ => ⟨_, _, rfl, ht ▸ .minus⟩
  | .plus ht _ => ⟨_, _, rfl, ht ▸ .plus⟩
  | .number ht => ⟨_, _, rfl, ht ▸ .number _⟩
  | .string ht => ⟨_, _, rfl, ht ▸ .string _⟩
  | .verdadero ⟨_, ht, _⟩ | .falso ⟨_, ht, _⟩ | .name ht _ | .element ht _ _ _ _ |
    .callNone ht _ _ _ | .call ht _ _ _ => ⟨_, _, rfl, ht ▸ .word _⟩
  | .parenthesized ht _ _ => ⟨_, _, rfl, ht ▸ .paren⟩

/-- No term starts with an operator. -/
private theorem Derives.head_term_ne {t : Token} {ts rest : List Token} {e : Expr}
    (h : Derives .term (t :: ts) e rest) (o : Operator) : t.symbol ≠ .operator o := by
  cases h with
  | verdadero ht | falso ht =>
    obtain ⟨name, hname, -⟩ := ht
    simp [hname]
  | number ht | string ht | name ht | element ht | callNone ht | call ht | parenthesized ht =>
    simp [ht]

/-- No power starts with an operator. -/
theorem Derives.head_power_ne {t : Token} {ts rest : List Token} {e : Expr}
    (h : Derives .power (t :: ts) e rest) (o : Operator) : t.symbol ≠ .operator o := by
  cases h with
  | raise h _ _ => exact h.head_term_ne o
  | base h => exact h.head_term_ne o

/-- Arguments start with a symbol that an operand can start with. -/
theorem DerivesArguments.head {ts rest : List Token} {es : List Expr}
    (h : DerivesArguments ts es rest) : ∃ t more, ts = t :: more ∧ StartsOperand t.symbol := by
  cases h with
  | last h _ => exact h.head
  | more h _ _ => exact h.head

end Grammar

end Pseudocode
