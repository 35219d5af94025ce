import Mathlib.Control.Monad.Basic
import Pseudocode.Proofs.Expr.Grammar
import Pseudocode.Proofs.Expr.Walk

/-!
# The readers of expressions recognise the grammar

A list of tokens is read as a tree exactly if the grammar derives the tree from it, and then there
is no other tree.

**Soundness** (`sound`). Whatever a reader finds is derived. The readers call each other, so one
statement for all of them goes through by induction on the depth; that of a chain is about the level
to which its left operand belongs, because a chain extends what the level has derived so far.

**Completeness** (`Derives.follows`). The rules of the grammar may stop anywhere, the readers take
in as much as they can, so a reader follows a derivation only if the token behind the phrase does
not continue it (`Ends`). A level needs that of itself and of all tighter levels. Inside a
derivation the token behind a phrase is an operator of a looser level or a closing symbol, and at
the end of the tokens there is none. The second thing that could come between a reader and a
derivation is the bound on the depth: a phrase takes at most as many readers as its `rank` before
it passes a token, and sixteen for each token is more than any rank.

**Uniqueness** (`Derives.unique`) follows, as a reader has at most one result.
-/

namespace Pseudocode

namespace Grammar

/-! ### What the readers decide -/

private theorem isWord_iff {words : List String} {s : Symbol} :
    s.isWord words = true ↔ ∃ w ∈ words, IsWord w s := by
  cases s <;> simp [Symbol.isWord, IsWord]

private theorem startsOperand_iff {s : Symbol} : s.startsOperand = true ↔ StartsOperand s := by
  constructor
  · intro h
    cases s with
    | number n => exact .number n
    | string content => exact .string content
    | word name => exact .word name
    | paren opens =>
      obtain rfl : opens = true := h
      exact .paren
    | operator o =>
      simp only [Symbol.startsOperand, Bool.or_eq_true, beq_iff_eq] at h
      rcases h with (rfl | rfl) | rfl
      · exact .minus
      · exact .plus
      · exact .tilde
    | bracket opens => cases h
    | comma => cases h
  · intro h
    cases h <;> rfl

/-- The operators that the readers know are those of the grammar. -/
private theorem joins_of_combine? {l : Level} {s : Symbol} {make : Expr → Expr → Expr}
    (h : l.combine? s = some make) (a b : Expr) : Joins a b l s (make a b) := by
  cases l with
  | disjunction =>
    simp only [Level.combine?, Option.ite_none_right_eq_some, Bool.or_eq_true, isWord_iff,
      beq_iff_eq, Option.some.injEq] at h
    obtain ⟨⟨w, hw, hs⟩ | rfl, rfl⟩ := h
    · simp only [List.mem_cons, List.not_mem_nil, or_false] at hw
      rcases hw with rfl | rfl
      · exact .o hs
      · exact .or hs
    · exact .bar
  | conjunction =>
    simp only [Level.combine?, Option.ite_none_right_eq_some, Bool.or_eq_true, isWord_iff,
      beq_iff_eq, Option.some.injEq] at h
    obtain ⟨⟨w, hw, hs⟩ | rfl, rfl⟩ := h
    · simp only [List.mem_cons, List.not_mem_nil, or_false] at hw
      rcases hw with rfl | rfl
      · exact .y hs
      · exact .and hs
    · exact .ampersand
  | comparison =>
    simp only [Level.combine?] at h
    split at h <;> cases h <;> constructor
  | sum =>
    simp only [Level.combine?] at h
    split at h <;> cases h <;> constructor
  | product =>
    simp only [Level.combine?] at h
    split at h
    · cases h; exact .star
    · cases h; exact .slash
    · cases h; exact .percent
    · obtain ⟨hs, hmake⟩ := Option.ite_none_right_eq_some.mp h
      obtain rfl := Option.some.inj hmake
      obtain ⟨w, hw, hs⟩ := isWord_iff.mp hs
      obtain rfl := List.mem_singleton.mp hw
      exact .mod hs

/-- The readers know every operator of the grammar. -/
private theorem Joins.combine? {a b e : Expr} {l : Level} {s : Symbol} (h : Joins a b l s e) :
    ∃ make, l.combine? s = some make ∧ make a b = e := by
  cases h with
  | o hs | or hs | y hs | and hs | mod hs =>
    obtain ⟨name, rfl, hname⟩ := hs
    exact ⟨_, by simp [Level.combine?, Symbol.isWord, hname], rfl⟩
  | _ => exact ⟨_, rfl, rfl⟩

/-- No symbol is an operator of two levels. -/
private theorem Joins.combine?_eq_none {a b e : Expr} {l l' : Level} {s : Symbol}
    (h : Joins a b l s e) (hl : l' ≠ l) : l'.combine? s = none := by
  cases h with
  | o hs | or hs | y hs | and hs | mod hs =>
    obtain ⟨name, rfl, hname⟩ := hs
    cases l' <;> simp_all [Level.combine?, Symbol.isWord]
  | _ => cases l' <;> simp_all [Level.combine?, Symbol.isWord]

/-- A word negates what follows it exactly if that can start an operand. -/
private theorem negates_iff {t : Token} {ts : List Token} :
    (t.symbol == .operator .tilde ||
      (t.symbol.isWord ["no", "not"] && ts.head?.any (·.symbol.startsOperand))) = true ↔
      Negates (t :: ts) := by
  simp only [Bool.or_eq_true, beq_iff_eq, Bool.and_eq_true, isWord_iff, Option.any_eq_true,
    startsOperand_iff, List.mem_cons, List.not_mem_nil, or_false, exists_eq_or_imp,
    exists_eq_left]
  constructor
  · rintro (ht | ⟨hw, u, hu, hs⟩)
    · exact .tilde ht
    · obtain ⟨more, rfl⟩ := List.head?_eq_some_iff.mp hu
      exact .word hw hs
  · intro h
    cases h with
    | tilde ht => exact .inl ht
    | word hw hs => exact .inr ⟨hw, _, rfl, hs⟩

private theorem truthWord?_verdadero : truthWord? "verdadero".toList = some true := rfl

private theorem truthWord?_falso : truthWord? "falso".toList = some false := rfl

/-- The words that are not truth values are the names. -/
theorem truthWord?_eq_none_iff {name : Text} : truthWord? name.lower = none ↔ IsName name := by
  rw [truthWord?, IsName]
  by_cases ht : name.lower = "verdadero".toList
  · rw [if_pos (beq_iff_eq.mpr ht)]
    exact ⟨nofun, fun h => absurd ht h.1⟩
  · rw [if_neg (mt beq_iff_eq.mp ht)]
    by_cases hf : name.lower = "falso".toList
    · rw [if_pos (beq_iff_eq.mpr hf)]
      exact ⟨nofun, fun h => absurd hf h.2⟩
    · rw [if_neg (mt beq_iff_eq.mp hf)]
      exact ⟨fun _ => ⟨ht, hf⟩, fun _ => rfl⟩

private theorem lower_of_truthWord?_eq_some {name : Text} {b : Bool}
    (h : truthWord? name.lower = some b) :
    name.lower = (if b then "verdadero" else "falso").toList := by
  rw [truthWord?] at h
  split at h
  · next ht =>
    obtain rfl := Option.some.inj h
    exact beq_iff_eq.mp ht
  · split at h
    · next hf =>
      obtain rfl := Option.some.inj h
      exact beq_iff_eq.mp hf
    · cases h

private theorem expectClosing_eq_ok_iff {s : Symbol} {shown : Char} {ts rest : List Token} :
    expectClosing s shown ts = .ok rest ↔ ∃ v, ts = v :: rest ∧ v.symbol = s := by
  cases ts with
  | nil => exact ⟨nofun, fun ⟨_, h, _⟩ => nomatch h⟩
  | cons v more =>
    simp only [expectClosing, beq_iff_eq]
    split
    · next hv =>
      refine ⟨fun h => ⟨v, by rw [Except.ok.inj h], hv⟩, ?_⟩
      rintro ⟨w, hw, -⟩
      rw [(List.cons.inj hw).2]
    · next hv =>
      refine ⟨nofun, ?_⟩
      rintro ⟨w, hw, hs⟩
      exact absurd ((List.cons.inj hw).1 ▸ hs) hv

/-! ### Soundness -/

/-- What the readers find down to a depth is derived. The chain of a level extends what the level
has derived so far. -/
structure Sound (depth : Nat) : Prop where
  operand {l : Level} {ts rest : List Token} {e : Expr} :
    readOperand depth l ts = .ok (e, rest) → Derives (operand l) ts e rest
  level {l : Level} {ts rest : List Token} {e : Expr} :
    readLevel depth l ts = .ok (e, rest) → Derives (.level l) ts e rest
  chain {l : Level} {all ts rest : List Token} {left e : Expr} :
    Derives (.level l) all left ts → readChain depth l left ts = .ok (e, rest) →
      Derives (.level l) all e rest
  negation {ts rest : List Token} {e : Expr} :
    readNegation depth ts = .ok (e, rest) → Derives .negation ts e rest
  signed {ts rest : List Token} {e : Expr} :
    readSigned depth ts = .ok (e, rest) → Derives .signed ts e rest
  power {ts rest : List Token} {e : Expr} :
    readPower depth ts = .ok (e, rest) → Derives .power ts e rest
  term {ts rest : List Token} {e : Expr} :
    readTerm depth ts = .ok (e, rest) → Derives .term ts e rest
  arguments {ts rest : List Token} {es : List Expr} :
    readArguments depth ts = .ok (es, rest) →
      (es = [] ∧ ∃ v, ts = v :: rest ∧ v.symbol = .paren false) ∨ DerivesArguments ts es rest
  list {ts rest : List Token} {es : List Expr} :
    readArgumentList depth ts = .ok (es, rest) → DerivesArguments ts es rest

private theorem sound_zero : Sound 0 := by
  constructor <;> intros <;> simp_all [readOperand, readLevel, readChain, readNegation, readSigned,
    readPower, readTerm, readArguments, readArgumentList]

section Step

variable {depth : Nat} (ih : Sound depth)

include ih

private theorem sound_operand {l : Level} {ts rest : List Token} {e : Expr}
    (h : readOperand (depth + 1) l ts = .ok (e, rest)) : Derives (operand l) ts e rest := by
  cases l with
  | disjunction => exact ih.level h
  | conjunction => exact ih.negation h
  | comparison => exact ih.level h
  | sum => exact ih.level h
  | product => exact ih.signed h

private theorem sound_level {l : Level} {ts rest : List Token} {e : Expr}
    (h : readLevel (depth + 1) l ts = .ok (e, rest)) : Derives (.level l) ts e rest := by
  obtain ⟨⟨left, mid⟩, hleft, hchain⟩ := bind_eq_ok_iff.mp h
  exact ih.chain (.operand (ih.operand hleft)) hchain

private theorem sound_chain {l : Level} {all ts rest : List Token} {left e : Expr}
    (hall : Derives (.level l) all left ts)
    (h : readChain (depth + 1) l left ts = .ok (e, rest)) : Derives (.level l) all e rest := by
  cases ts with
  | nil =>
    obtain ⟨rfl, rfl⟩ := Prod.mk.inj (Except.ok.inj h)
    exact hall
  | cons t ts =>
    rw [readChain] at h
    split at h
    · obtain ⟨rfl, rfl⟩ := Prod.mk.inj (Except.ok.inj h)
      exact hall
    · next make hmake =>
      obtain ⟨⟨right, mid⟩, hright, hchain⟩ := bind_eq_ok_iff.mp h
      exact ih.chain (.join hall (joins_of_combine? hmake left right) (ih.operand hright)) hchain

private theorem sound_negation {ts rest : List Token} {e : Expr}
    (h : readNegation (depth + 1) ts = .ok (e, rest)) : Derives .negation ts e rest := by
  cases ts with
  | nil => exact .compare (fun hn => nomatch hn) (ih.level h)
  | cons t ts =>
    simp only [readNegation] at h
    split at h
    · next hn =>
      obtain ⟨⟨operand, mid⟩, hop, hres⟩ := bind_eq_ok_iff.mp h
      obtain ⟨rfl, rfl⟩ := Prod.mk.inj (Except.ok.inj hres)
      exact .negate (negates_iff.mp hn) (ih.negation hop)
    · next hn => exact .compare (fun h' => hn (negates_iff.mpr h')) (ih.level h)

private theorem sound_signed {ts rest : List Token} {e : Expr}
    (h : readSigned (depth + 1) ts = .ok (e, rest)) : Derives .signed ts e rest := by
  cases ts with
  | nil => exact .unsigned (ih.power h)
  | cons t ts =>
    simp only [readSigned, beq_iff_eq] at h
    split at h
    · next ht =>
      obtain ⟨⟨operand, mid⟩, hop, hres⟩ := bind_eq_ok_iff.mp h
      obtain ⟨rfl, rfl⟩ := Prod.mk.inj (Except.ok.inj hres)
      exact .minus ht (ih.signed hop)
    · split at h
      · next ht =>
        obtain ⟨⟨operand, mid⟩, hop, hres⟩ := bind_eq_ok_iff.mp h
        obtain ⟨rfl, rfl⟩ := Prod.mk.inj (Except.ok.inj hres)
        exact .plus ht (ih.signed hop)
      · exact .unsigned (ih.power h)

private theorem sound_power {ts rest : List Token} {e : Expr}
    (h : readPower (depth + 1) ts = .ok (e, rest)) : Derives .power ts e rest := by
  obtain ⟨⟨base, mid⟩, hbase, h⟩ := bind_eq_ok_iff.mp h
  cases mid with
  | nil =>
    obtain ⟨rfl, rfl⟩ := Prod.mk.inj (Except.ok.inj h)
    exact .base (ih.term hbase)
  | cons t more =>
    simp only [Bool.or_eq_true, beq_iff_eq] at h
    split at h
    · next ht =>
      obtain ⟨⟨exponent, mid⟩, hexp, hres⟩ := bind_eq_ok_iff.mp h
      obtain ⟨rfl, rfl⟩ := Prod.mk.inj (Except.ok.inj hres)
      exact .raise (ih.term hbase) ht (ih.signed hexp)
    · obtain ⟨rfl, rfl⟩ := Prod.mk.inj (Except.ok.inj h)
      exact .base (ih.term hbase)

private theorem sound_term {ts rest : List Token} {e : Expr}
    (h : readTerm (depth + 1) ts = .ok (e, rest)) : Derives .term ts e rest := by
  cases ts with
  | nil => cases h
  | cons t ts =>
    rw [readTerm] at h
    split at h
    · next n ht =>
      obtain ⟨rfl, rfl⟩ := Prod.mk.inj (Except.ok.inj h)
      exact .number ht
    · next content ht =>
      obtain ⟨rfl, rfl⟩ := Prod.mk.inj (Except.ok.inj h)
      exact .string ht
    · next name ht =>
      split at h
      · next b hb =>
        obtain ⟨rfl, rfl⟩ := Prod.mk.inj (Except.ok.inj h)
        have hlower := lower_of_truthWord?_eq_some hb
        cases b with
        | true => exact .verdadero ⟨name, ht, hlower⟩
        | false => exact .falso ⟨name, ht, hlower⟩
      · next hb =>
        have hname := truthWord?_eq_none_iff.mp hb
        split at h
        · obtain ⟨rfl, rfl⟩ := Prod.mk.inj (Except.ok.inj h)
          exact .name ht hname
        · next u more =>
          simp only [beq_iff_eq] at h
          split at h
          · next hu =>
            obtain ⟨⟨arguments, mid⟩, hargs, hres⟩ := bind_eq_ok_iff.mp h
            obtain ⟨rfl, rfl⟩ := Prod.mk.inj (Except.ok.inj hres)
            rcases ih.arguments hargs with ⟨rfl, v, rfl, hv⟩ | hargs
            · exact .callNone ht hname hu hv
            · exact .call ht hname hu hargs
          · split at h
            · next hu =>
              obtain ⟨⟨index, mid⟩, hindex, h⟩ := bind_eq_ok_iff.mp h
              obtain ⟨mid, hclose, hres⟩ := bind_eq_ok_iff.mp h
              obtain ⟨rfl, rfl⟩ := Prod.mk.inj (Except.ok.inj hres)
              obtain ⟨v, rfl, hv⟩ := expectClosing_eq_ok_iff.mp hclose
              exact .element ht hname hu (ih.level hindex) hv
            · obtain ⟨rfl, rfl⟩ := Prod.mk.inj (Except.ok.inj h)
              exact .name ht hname
    · next ht =>
      obtain ⟨⟨inner, mid⟩, hinner, h⟩ := bind_eq_ok_iff.mp h
      obtain ⟨mid, hclose, hres⟩ := bind_eq_ok_iff.mp h
      obtain ⟨rfl, rfl⟩ := Prod.mk.inj (Except.ok.inj hres)
      obtain ⟨v, rfl, hv⟩ := expectClosing_eq_ok_iff.mp hclose
      exact .parenthesized ht (ih.level hinner) hv
    · cases h

private theorem sound_arguments {ts rest : List Token} {es : List Expr}
    (h : readArguments (depth + 1) ts = .ok (es, rest)) :
    (es = [] ∧ ∃ v, ts = v :: rest ∧ v.symbol = .paren false) ∨ DerivesArguments ts es rest := by
  cases ts with
  | nil => exact .inr (ih.list h)
  | cons t ts =>
    simp only [readArguments, beq_iff_eq] at h
    split at h
    · next ht =>
      obtain ⟨rfl, rfl⟩ := Prod.mk.inj (Except.ok.inj h)
      exact .inl ⟨rfl, t, rfl, ht⟩
    · exact .inr (ih.list h)

private theorem sound_list {ts rest : List Token} {es : List Expr}
    (h : readArgumentList (depth + 1) ts = .ok (es, rest)) : DerivesArguments ts es rest := by
  obtain ⟨⟨argument, mid⟩, harg, h⟩ := bind_eq_ok_iff.mp h
  cases mid with
  | nil => cases h
  | cons t more =>
    simp only [beq_iff_eq] at h
    split at h
    · next ht =>
      obtain ⟨⟨arguments, mid⟩, hargs, hres⟩ := bind_eq_ok_iff.mp h
      obtain ⟨rfl, rfl⟩ := Prod.mk.inj (Except.ok.inj hres)
      exact .more (ih.level harg) ht (ih.list hargs)
    · obtain ⟨mid, hclose, hres⟩ := bind_eq_ok_iff.mp h
      obtain ⟨rfl, rfl⟩ := Prod.mk.inj (Except.ok.inj hres)
      obtain ⟨v, hv, hs⟩ := expectClosing_eq_ok_iff.mp hclose
      obtain ⟨rfl, rfl⟩ := List.cons.inj hv
      exact .last (ih.level harg) hs

end Step

/-- **Soundness of the readers** at every depth. -/
theorem sound (depth : Nat) : Sound depth := by
  induction depth with
  | zero => exact sound_zero
  | succ depth ih =>
    exact ⟨sound_operand ih, sound_level ih, sound_chain ih, sound_negation ih, sound_signed ih,
      sound_power ih, sound_term ih, sound_arguments ih, sound_list ih⟩

/-! ### Completeness

A rule of the grammar may stop before an operator that a reader would go on to. In a derivation of a
whole list of tokens this does not happen: behind each phrase stands a symbol that its reader stops
at. -/

/-- The levels whose operators belong to a phrase. -/
def levelsWithin : Phrase → List Level
  | .term | .power | .signed => []
  | .level .product => [.product]
  | .level .sum => [.product, .sum]
  | .level .comparison | .negation => [.product, .sum, .comparison]
  | .level .conjunction => [.product, .sum, .comparison, .conjunction]
  | .level .disjunction => [.product, .sum, .comparison, .conjunction, .disjunction]

/-- The reader of a phrase stops at the symbol. -/
structure Stops (p : Phrase) (s : Symbol) : Prop where
  paren : s ≠ .paren true
  bracket : s ≠ .bracket true
  caret : p ≠ .term → s ≠ .operator .caret
  starStar : p ≠ .term → s ≠ .operator .starStar
  levels : ∀ l ∈ levelsWithin p, l.combine? s = none

/-- The reader of a phrase stops at the front of the tokens. -/
def Ends (p : Phrase) (rest : List Token) : Prop := ∀ t ∈ rest.head?, Stops p t.symbol

private theorem ends_nil (p : Phrase) : Ends p [] := fun _ h => nomatch h

private theorem ends_cons {p : Phrase} {t : Token} {ts : List Token} (h : Stops p t.symbol) :
    Ends p (t :: ts) := by
  intro u hu
  obtain rfl := Option.some.inj hu
  exact h

private theorem Ends.head {p : Phrase} {t : Token} {ts : List Token} (h : Ends p (t :: ts)) :
    Stops p t.symbol := h t rfl

/-- A closing symbol or a comma ends every phrase. -/
private theorem stops_of_closing {s : Symbol}
    (h : s = .paren false ∨ s = .bracket false ∨ s = .comma) (p : Phrase) : Stops p s := by
  rcases h with rfl | rfl | rfl <;>
    exact ⟨nofun, nofun, fun _ => nofun, fun _ => nofun, fun l _ => by cases l <;> rfl⟩

/-- An operator of a level ends the operand before it. -/
private theorem Joins.stops {a b e : Expr} {l : Level} {s : Symbol} (h : Joins a b l s e) :
    Stops (operand l) s := by
  have hlevels : ∀ l' ∈ levelsWithin (operand l), l'.combine? s = none := fun l' hl' =>
    h.combine?_eq_none (by rintro rfl; cases l' <;> simp [operand, levelsWithin] at hl')
  cases h with
  | o hs | or hs | y hs | and hs | mod hs =>
    obtain ⟨name, rfl, -⟩ := hs
    exact ⟨nofun, nofun, fun _ => nofun, fun _ => nofun, hlevels⟩
  | _ => exact ⟨nofun, nofun, fun _ => nofun, fun _ => nofun, hlevels⟩

/-- What ends a level ends its operands, and is no operator of it. -/
private theorem Stops.of_level {l : Level} {s : Symbol} (h : Stops (.level l) s) :
    Stops (operand l) s ∧ l.combine? s = none := by
  refine ⟨⟨h.paren, h.bracket, fun _ => h.caret nofun, fun _ => h.starStar nofun, fun l' hl' => ?_⟩,
    h.levels l (by cases l <;> simp [levelsWithin])⟩
  refine h.levels l' ?_
  cases l <;> simp [operand, levelsWithin] at hl' ⊢ <;> grind

/-- How deep a reader may go before it takes in its first token. -/
def rank : Phrase → Nat
  | .term => 1
  | .power => 2
  | .signed => 3
  | .level .product => 5
  | .level .sum => 7
  | .level .comparison => 9
  | .negation => 10
  | .level .conjunction => 12
  | .level .disjunction => 14

private theorem rank_level (l : Level) : rank (.level l) = rank (operand l) + 2 := by
  cases l <;> rfl

private theorem rank_le (p : Phrase) : rank p ≤ 14 := by
  cases p with
  | level l => cases l <;> decide
  | _ => decide

/-- What the reader of a phrase makes of tokens from which the phrase derives a tree, as long as it
stops where the derivation does. The reader of a level may still be in the middle of its chain: it
has found the tree as a left operand. -/
def Follows (depth : Nat) (e : Expr) (rest : List Token) : Phrase → List Token → Prop
  | .level l, ts => Ends (operand l) rest →
      ∃ d, 16 * rest.length + 1 ≤ d ∧ readLevel depth l ts = readChain d l e rest
  | .negation, ts => Ends .negation rest → readNegation depth ts = .ok (e, rest)
  | .signed, ts => Ends .signed rest → readSigned depth ts = .ok (e, rest)
  | .power, ts => Ends .power rest → readPower depth ts = .ok (e, rest)
  | .term, ts => Ends .term rest → readTerm depth ts = .ok (e, rest)

/-- The chain of a level comes to its end before a symbol that ends the level. -/
private theorem readChain_of_ends {d : Nat} {l : Level} {e : Expr} {rest : List Token}
    (hd : 1 ≤ d) (h : Ends (.level l) rest) : readChain d l e rest = .ok (e, rest) := by
  obtain ⟨d, rfl⟩ := Nat.exists_eq_add_of_le' hd
  cases rest with
  | nil => rfl
  | cons t ts => rw [readChain, h.head.of_level.2]

private theorem Follows.level {depth : Nat} {l : Level} {e : Expr} {ts rest : List Token}
    (h : Follows depth e rest (.level l) ts) (hends : Ends (.level l) rest) :
    readLevel depth l ts = .ok (e, rest) := by
  obtain ⟨d, hd, hread⟩ := h fun t ht => (hends t ht).of_level.1
  rw [hread]
  exact readChain_of_ends (by omega) hends

/-- The reader of an operand is the reader of its phrase, one step deeper. -/
private theorem Follows.operand {depth : Nat} {l : Level} {e : Expr} {ts rest : List Token}
    (h : Follows depth e rest (operand l) ts) (hends : Ends (operand l) rest) :
    readOperand (depth + 1) l ts = .ok (e, rest) := by
  cases l with
  | disjunction => exact Follows.level h hends
  | conjunction => exact h hends
  | comparison => exact Follows.level h hends
  | sum => exact Follows.level h hends
  | product => exact h hends

private theorem Stops.comparison_of_negation {s : Symbol} (h : Stops .negation s) :
    Stops (.level .comparison) s :=
  ⟨h.paren, h.bracket, fun _ => h.caret nofun, fun _ => h.starStar nofun, h.levels⟩

private theorem Stops.power_of_signed {s : Symbol} (h : Stops .signed s) : Stops .power s :=
  ⟨h.paren, h.bracket, fun _ => h.caret nofun, fun _ => h.starStar nofun, h.levels⟩

private theorem Stops.signed_of_power {s : Symbol} (h : Stops .power s) : Stops .signed s :=
  ⟨h.paren, h.bracket, fun _ => h.caret nofun, fun _ => h.starStar nofun, h.levels⟩

private theorem Stops.term_of_power {s : Symbol} (h : Stops .power s) : Stops .term s :=
  ⟨h.paren, h.bracket, fun _ => h.caret nofun, fun _ => h.starStar nofun, h.levels⟩

/-- The sign of a power ends the term before it. -/
private theorem stops_term_of_raises {s : Symbol}
    (h : s = .operator .caret ∨ s = .operator .starStar) :
    Stops .term s := by
  rcases h with rfl | rfl <;> exact ⟨nofun, nofun, (absurd rfl ·), (absurd rfl ·), nofun⟩

/-! #### The readers, one rule at a time -/

section Rules

variable {d : Nat} {t u v : Token} {ts mid rest : List Token} {e : Expr} {name : Text}

private theorem readLevel_operand {l : Level} (h : readOperand (d + 1) l ts = .ok (e, rest)) :
    readLevel (d + 2) l ts = readChain (d + 1) l e rest := by
  rw [readLevel, h]
  rfl

private theorem readChain_join {l : Level} {left right : Expr} (hj : Joins left right l t.symbol e)
    (h : readOperand (d + 1) l mid = .ok (right, rest)) :
    readChain (d + 2) l left (t :: mid) = readChain (d + 1) l e rest := by
  obtain ⟨make, hmake, rfl⟩ := hj.combine?
  rw [readChain, hmake, h]
  rfl

private theorem readNegation_negate (hn : Negates (t :: ts))
    (h : readNegation d ts = .ok (e, rest)) :
    readNegation (d + 1) (t :: ts) = .ok (.unary .not e, rest) := by
  simp only [readNegation]
  rw [if_pos (negates_iff.mpr hn), h]
  rfl

private theorem readNegation_compare (hn : ¬ Negates (t :: ts)) :
    readNegation (d + 1) (t :: ts) = readLevel d .comparison (t :: ts) := by
  simp only [readNegation]
  rw [if_neg (mt negates_iff.mp hn)]

private theorem readSigned_minus (ht : t.symbol = .operator .minus)
    (h : readSigned d ts = .ok (e, rest)) :
    readSigned (d + 1) (t :: ts) = .ok (.unary .negate e, rest) := by
  simp only [readSigned]
  rw [if_pos (beq_iff_eq.mpr ht), h]
  rfl

private theorem readSigned_plus (ht : t.symbol = .operator .plus)
    (h : readSigned d ts = .ok (e, rest)) :
    readSigned (d + 1) (t :: ts) = .ok (.unary .keep e, rest) := by
  simp only [readSigned]
  rw [if_neg (by simp [ht]), if_pos (beq_iff_eq.mpr ht), h]
  rfl

private theorem readSigned_unsigned (ht : ∀ o, t.symbol ≠ .operator o) :
    readSigned (d + 1) (t :: ts) = readPower d (t :: ts) := by
  simp only [readSigned]
  rw [if_neg (by simp [ht]), if_neg (by simp [ht])]

private theorem readPower_raise {base exponent : Expr}
    (hbase : readTerm d ts = .ok (base, t :: mid))
    (ht : t.symbol = .operator .caret ∨ t.symbol = .operator .starStar)
    (h : readSigned d mid = .ok (exponent, rest)) :
    readPower (d + 1) ts = .ok (.binary .power base exponent, rest) := by
  have hraises : (t.symbol == .operator .caret || t.symbol == .operator .starStar) = true := by
    simpa using ht
  simp only [readPower, hbase, bind, Except.bind]
  rw [if_pos hraises, h]
  rfl

private theorem readPower_base (hbase : readTerm d ts = .ok (e, rest)) (hends : Ends .power rest) :
    readPower (d + 1) ts = .ok (e, rest) := by
  simp only [readPower, hbase, bind, Except.bind]
  cases rest with
  | nil => rfl
  | cons t more =>
    have hraises : ¬ (t.symbol == .operator .caret || t.symbol == .operator .starStar) = true := by
      have hpower : Phrase.power ≠ .term := by decide
      simpa using ⟨hends.head.caret hpower, hends.head.starStar hpower⟩
    dsimp only
    rw [if_neg hraises]
    rfl

private theorem readTerm_number {n : Number} (ht : t.symbol = .number n) :
    readTerm (d + 1) (t :: rest) = .ok (.number n, rest) := by
  rw [readTerm, ht]

private theorem readTerm_string {content : Text} (ht : t.symbol = .string content) :
    readTerm (d + 1) (t :: rest) = .ok (.text content, rest) := by
  rw [readTerm, ht]

private theorem readTerm_verdadero (ht : IsWord "verdadero" t.symbol) :
    readTerm (d + 1) (t :: rest) = .ok (.bool true, rest) := by
  obtain ⟨name, hs, hname⟩ := ht
  simp only [readTerm, hs, hname, truthWord?_verdadero]

private theorem readTerm_falso (ht : IsWord "falso" t.symbol) :
    readTerm (d + 1) (t :: rest) = .ok (.bool false, rest) := by
  obtain ⟨name, hs, hname⟩ := ht
  simp only [readTerm, hs, hname, truthWord?_falso]

private theorem readTerm_name (ht : t.symbol = .word name) (hn : IsName name)
    (hends : Ends .term rest) :
    readTerm (d + 1) (t :: rest) = .ok (.variable name, rest) := by
  simp only [readTerm, ht, truthWord?_eq_none_iff.mpr hn]
  cases rest with
  | nil => rfl
  | cons u more =>
    dsimp only
    rw [if_neg (by simpa using hends.head.paren), if_neg (by simpa using hends.head.bracket)]

private theorem readTerm_element {index : Expr} (ht : t.symbol = .word name) (hn : IsName name)
    (hu : u.symbol = .bracket true) (h : readLevel d .disjunction ts = .ok (index, v :: rest))
    (hv : v.symbol = .bracket false) :
    readTerm (d + 1) (t :: u :: ts) = .ok (.element name index, rest) := by
  simp only [readTerm, ht, truthWord?_eq_none_iff.mpr hn]
  rw [if_neg (by simp [hu]), if_pos (beq_iff_eq.mpr hu), h]
  simp only [bind, Except.bind, expectClosing_eq_ok_iff.mpr ⟨v, rfl, hv⟩]
  rfl

private theorem readTerm_call {arguments : List Expr} (ht : t.symbol = .word name)
    (hn : IsName name)
    (hu : u.symbol = .paren true) (h : readArguments d ts = .ok (arguments, rest)) :
    readTerm (d + 1) (t :: u :: ts) = .ok (.call name.lower arguments, rest) := by
  simp only [readTerm, ht, truthWord?_eq_none_iff.mpr hn]
  rw [if_pos (beq_iff_eq.mpr hu), h]
  rfl

private theorem readTerm_parenthesized (ht : t.symbol = .paren true)
    (h : readLevel d .disjunction ts = .ok (e, v :: rest)) (hv : v.symbol = .paren false) :
    readTerm (d + 1) (t :: ts) = .ok (e, rest) := by
  simp only [readTerm, ht, h, bind, Except.bind, expectClosing_eq_ok_iff.mpr ⟨v, rfl, hv⟩]
  rfl

private theorem readArguments_none (hv : v.symbol = .paren false) :
    readArguments (d + 1) (v :: rest) = .ok ([], rest) := by
  simp only [readArguments]
  rw [if_pos (beq_iff_eq.mpr hv)]

private theorem readArguments_some (ht : StartsOperand t.symbol) :
    readArguments (d + 1) (t :: ts) = readArgumentList d (t :: ts) := by
  have hne : t.symbol ≠ .paren false := fun h => by rw [h] at ht; cases ht
  simp only [readArguments]
  rw [if_neg (by simpa using hne)]

private theorem readArgumentList_last (h : readLevel d .disjunction ts = .ok (e, v :: rest))
    (hv : v.symbol = .paren false) : readArgumentList (d + 1) ts = .ok ([e], rest) := by
  simp only [readArgumentList, h, bind, Except.bind]
  rw [if_neg (by simp [hv]), expectClosing_eq_ok_iff.mpr ⟨v, rfl, hv⟩]
  rfl

private theorem readArgumentList_more {es : List Expr}
    (h : readLevel d .disjunction ts = .ok (e, v :: mid)) (hv : v.symbol = .comma)
    (h' : readArgumentList d mid = .ok (es, rest)) :
    readArgumentList (d + 1) ts = .ok (e :: es, rest) := by
  simp only [readArgumentList, h, bind, Except.bind]
  rw [if_pos (beq_iff_eq.mpr hv), h']
  rfl

end Rules

mutual

/-- **Completeness of the readers**: with enough depth for the tokens at hand, each follows the
derivation of its phrase. -/
theorem Derives.follows {p : Phrase} {ts rest : List Token} {e : Expr} :
    Derives p ts e rest → ∀ depth, 16 * ts.length + rank p ≤ depth → Follows depth e rest p ts
  | .operand h, depth, hd => by
    intro hends
    have hlen := h.length_lt
    rw [rank_level] at hd
    obtain ⟨d, rfl⟩ := Nat.exists_eq_add_of_le' (show 2 ≤ depth by omega)
    exact ⟨d + 1, by omega, readLevel_operand ((h.follows d (by omega)).operand hends)⟩
  | .join (l := l) h hj h', depth, hd => by
    intro hends
    -- the reader has found the left operand and stands before the operator
    obtain ⟨d, hd', hread⟩ := h.follows depth hd (ends_cons hj.stops)
    rw [List.length_cons] at hd'
    have hlen := h'.length_lt
    have hrank := rank_le (operand l)
    obtain ⟨d, rfl⟩ := Nat.exists_eq_add_of_le' (show 2 ≤ d by omega)
    refine ⟨d + 1, by omega, hread.trans ?_⟩
    exact readChain_join hj ((h'.follows d (by omega)).operand hends)
  | .negate hn h, depth, hd => by
    intro hends
    rw [List.length_cons] at hd
    obtain ⟨d, rfl⟩ := Nat.exists_eq_add_of_le' (show 1 ≤ depth by omega)
    exact readNegation_negate hn (h.follows d (by omega) hends)
  | .compare hn h, depth, hd => by
    have ih := h.follows
    intro hends
    simp only [rank] at hd ih
    obtain ⟨d, rfl⟩ := Nat.exists_eq_add_of_le' (show 1 ≤ depth by omega)
    -- what ends the negation ends the comparison too, so the level stops at the same place
    obtain ⟨t, more, rfl, -⟩ := h.head
    rw [readNegation_compare hn]
    exact (ih d (by omega)).level fun u hu => (hends u hu).comparison_of_negation
  | .minus ht h, depth, hd => by
    intro hends
    rw [List.length_cons] at hd
    obtain ⟨d, rfl⟩ := Nat.exists_eq_add_of_le' (show 1 ≤ depth by omega)
    exact readSigned_minus ht (h.follows d (by omega) hends)
  | .plus ht h, depth, hd => by
    intro hends
    rw [List.length_cons] at hd
    obtain ⟨d, rfl⟩ := Nat.exists_eq_add_of_le' (show 1 ≤ depth by omega)
    exact readSigned_plus ht (h.follows d (by omega) hends)
  | .unsigned h, depth, hd => by
    have ih := h.follows
    intro hends
    simp only [rank] at hd ih
    obtain ⟨d, rfl⟩ := Nat.exists_eq_add_of_le' (show 1 ≤ depth by omega)
    obtain ⟨t, more, rfl, -⟩ := h.head
    rw [readSigned_unsigned h.head_power_ne]
    exact ih d (by omega) fun u hu => (hends u hu).power_of_signed
  | .raise h ht h', depth, hd => by
    have ih := h.follows
    have ih' := h'.follows
    have hlen := h.length_lt
    intro hends
    simp only [rank, List.length_cons] at hd ih ih' hlen
    -- a sign ranks above a power; the depth suffices because the base has taken in a token
    obtain ⟨d, rfl⟩ := Nat.exists_eq_add_of_le' (show 1 ≤ depth by omega)
    exact readPower_raise (ih d (by omega) (ends_cons (stops_term_of_raises ht))) ht
      (ih' d (by omega) fun u hu => (hends u hu).signed_of_power)
  | .base h, depth, hd => by
    have ih := h.follows
    intro hends
    simp only [rank] at hd ih
    obtain ⟨d, rfl⟩ := Nat.exists_eq_add_of_le' (show 1 ≤ depth by omega)
    exact readPower_base (ih d (by omega) fun u hu => (hends u hu).term_of_power) hends
  | .number ht, depth, hd => by
    intro _
    obtain ⟨d, rfl⟩ := Nat.exists_eq_add_of_le' (show 1 ≤ depth by simp only [rank] at hd; omega)
    exact readTerm_number ht
  | .string ht, depth, hd => by
    intro _
    obtain ⟨d, rfl⟩ := Nat.exists_eq_add_of_le' (show 1 ≤ depth by simp only [rank] at hd; omega)
    exact readTerm_string ht
  | .verdadero ht, depth, hd => by
    intro _
    obtain ⟨d, rfl⟩ := Nat.exists_eq_add_of_le' (show 1 ≤ depth by simp only [rank] at hd; omega)
    exact readTerm_verdadero ht
  | .falso ht, depth, hd => by
    intro _
    obtain ⟨d, rfl⟩ := Nat.exists_eq_add_of_le' (show 1 ≤ depth by simp only [rank] at hd; omega)
    exact readTerm_falso ht
  | .name ht hn, depth, hd => by
    intro hends
    obtain ⟨d, rfl⟩ := Nat.exists_eq_add_of_le' (show 1 ≤ depth by simp only [rank] at hd; omega)
    exact readTerm_name ht hn hends
  | .element ht hn hu h hv, depth, hd => by
    have ih := h.follows
    intro _
    simp only [rank, List.length_cons] at hd ih
    obtain ⟨d, rfl⟩ := Nat.exists_eq_add_of_le' (show 1 ≤ depth by omega)
    have hindex := (ih d (by omega)).level (ends_cons (stops_of_closing (.inr (.inl hv)) _))
    exact readTerm_element ht hn hu hindex hv
  | .callNone ht hn hu hv, depth, hd => by
    intro _
    simp only [rank, List.length_cons] at hd
    obtain ⟨d, rfl⟩ := Nat.exists_eq_add_of_le' (show 2 ≤ depth by omega)
    exact readTerm_call ht hn hu (readArguments_none hv)
  | .call ht hn hu h, depth, hd => by
    have ih := h.follows
    intro _
    simp only [rank, List.length_cons] at hd ih
    obtain ⟨d, rfl⟩ := Nat.exists_eq_add_of_le' (show 2 ≤ depth by omega)
    obtain ⟨v, more, rfl, hv⟩ := h.head
    refine readTerm_call ht hn hu ?_
    rw [readArguments_some hv]
    exact ih d (by omega)
  | .parenthesized ht h hv, depth, hd => by
    have ih := h.follows
    intro _
    simp only [rank, List.length_cons] at hd ih
    obtain ⟨d, rfl⟩ := Nat.exists_eq_add_of_le' (show 1 ≤ depth by omega)
    have hinner := (ih d (by omega)).level (ends_cons (stops_of_closing (.inl hv) _))
    exact readTerm_parenthesized ht hinner hv

/-- The reader of arguments follows their derivation. -/
private theorem DerivesArguments.follows {ts rest : List Token} {es : List Expr} :
    DerivesArguments ts es rest → ∀ depth, 16 * ts.length + 15 ≤ depth →
      readArgumentList depth ts = .ok (es, rest)
  | .last h hv, depth, hd => by
    have ih := h.follows
    simp only [rank] at ih
    obtain ⟨d, rfl⟩ := Nat.exists_eq_add_of_le' (show 1 ≤ depth by omega)
    have hlast := (ih d (by omega)).level (ends_cons (stops_of_closing (.inl hv) _))
    exact readArgumentList_last hlast hv
  | .more h hv h', depth, hd => by
    have ih := h.follows
    have ih' := h'.follows
    have hlen := h.length_lt
    simp only [rank, List.length_cons] at ih hlen
    obtain ⟨d, rfl⟩ := Nat.exists_eq_add_of_le' (show 1 ≤ depth by omega)
    have hfirst := (ih d (by omega)).level (ends_cons (stops_of_closing (.inr (.inr hv)) _))
    exact readArgumentList_more hfirst hv (ih' d (by omega))

end

/-! ### Recognition -/

/-- The reader of whole expressions finds a tree exactly if the grammar derives it from all of the
tokens. -/
theorem ofTokens_eq_ok_iff {ts : List Token} {e : Expr} :
    Expr.ofTokens ts = .ok e ↔ Derives (.level .disjunction) ts e [] := by
  constructor
  · intro h
    rw [Expr.ofTokens] at h
    split at h
    · cases h
    · obtain ⟨⟨tree, rest⟩, htree, h⟩ := bind_eq_ok_iff.mp h
      cases rest with
      | nil =>
        obtain rfl := Except.ok.inj h
        exact (sound _).level htree
      | cons t more => cases h
  · intro h
    obtain ⟨t, more, hts, -⟩ := h.head
    have hrank : 16 * ts.length + rank (.level .disjunction) ≤ Expr.depthBound ts := by
      simp only [rank, Expr.depthBound]
      omega
    have hread := (h.follows (Expr.depthBound ts) hrank).level (ends_nil _)
    rw [Expr.ofTokens, if_neg (by simp [hts]), hread]
    rfl

/-- **The grammar is unambiguous**: a list of tokens has at most one tree. -/
theorem Derives.unique {ts : List Token} {e e' : Expr}
    (h : Derives (.level .disjunction) ts e []) (h' : Derives (.level .disjunction) ts e' []) :
    e = e' :=
  Except.ok.inj ((ofTokens_eq_ok_iff.mpr h).symm.trans (ofTokens_eq_ok_iff.mpr h'))

/-- A text with tokens is read as its tokens are, and a fault names the text. -/
theorem parse_eq_of_scan {source : Text} {scanned : Scan} (h : scan source = .ok scanned) :
    Expr.parse source = (Expr.ofTokens scanned.tokens).mapError (.within source) := by
  rw [Expr.parse, h]
  simp only [bind, Except.bind]
  cases Expr.ofTokens scanned.tokens <;> rfl

/-- **The reader of expressions accepts exactly the grammar.** Of a text that has tokens it returns
a tree if and only if the grammar derives the tree from all of them; there is at most one such
tree; without one the result is a fault of the expression; and on the way no place behind the end
mark is looked at. -/
theorem parse_accepts_grammar (source : Text) (scanned : Scan) (h : scan source = .ok scanned) :
    (∀ e, Expr.parse source = .ok e ↔ Derives (.level .disjunction) scanned.tokens e []) ∧
      (∀ e e', Derives (.level .disjunction) scanned.tokens e [] →
        Derives (.level .disjunction) scanned.tokens e' [] → e = e') ∧
      ((¬ ∃ e, Derives (.level .disjunction) scanned.tokens e []) →
        ∃ problem, Expr.parse source = .error (.expression problem (some source))) ∧
      Walk.walk scanned.tokens = (Expr.ofTokens scanned.tokens).mapError .problem ∧
      Walk.walk scanned.tokens ≠ .error .outside := by
  refine ⟨fun e => ?_, fun e e' => Derives.unique, fun hnone => ?_, Walk.walk_eq_ofTokens _, ?_⟩
  · rw [← ofTokens_eq_ok_iff, parse_eq_of_scan h]
    cases Expr.ofTokens scanned.tokens <;> simp [Except.mapError]
  · cases htree : Expr.ofTokens scanned.tokens with
    | ok e => exact absurd ⟨e, ofTokens_eq_ok_iff.mp htree⟩ hnone
    | error problem => exact ⟨problem, by rw [parse_eq_of_scan h, htree]; rfl⟩
  · rw [Walk.walk_eq_ofTokens]
    cases Expr.ofTokens scanned.tokens <;> simp [Except.mapError]

/-- In `NO y Y no` the first word negates, the third joins, and the second and the last are names.
-/
theorem parse_accepts_words :
    scan "NO y Y no".toList = .ok
        ⟨[⟨.word "NO".toList, 1⟩, ⟨.word "y".toList, 4⟩, ⟨.word "Y".toList, 6⟩,
          ⟨.word "no".toList, 8⟩], 10⟩ ∧
      Derives (.level .disjunction)
        [⟨.word "NO".toList, 1⟩, ⟨.word "y".toList, 4⟩, ⟨.word "Y".toList, 6⟩,
          ⟨.word "no".toList, 8⟩]
        (.logic .and (.unary .not (.variable "y".toList)) (.variable "no".toList)) [] := by
  have hscan : scan "NO y Y no".toList = .ok
      ⟨[⟨.word "NO".toList, 1⟩, ⟨.word "y".toList, 4⟩, ⟨.word "Y".toList, 6⟩,
        ⟨.word "no".toList, 8⟩], 10⟩ :=
    scan_of_tokensFrom (by decide +kernel)
  have hparse : Expr.parse "NO y Y no".toList =
      .ok (.logic .and (.unary .not (.variable "y".toList)) (.variable "no".toList)) := by
    rw [parse_eq_of_scan hscan]
    rfl
  exact ⟨hscan, ((parse_accepts_grammar _ _ hscan).1 _).mp hparse⟩

end Grammar

end Pseudocode
