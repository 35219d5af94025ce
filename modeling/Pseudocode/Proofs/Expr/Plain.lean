import Pseudocode.Proofs.Expr.Recognition
import Pseudocode.Proofs.Text.Lower
import Pseudocode.Proofs.Token.Written

/-!
# Plain texts as expressions

A plain text, without blanks and with nothing of ASCII that cannot stand in a word, is a very short
expression if it is one at all (`Plainly`): a name, a truth value or a number. The scanner finds
numbers in it and perhaps one word at its end, because a word takes in all that can stand in a word
and what is left then is no symbol (`Token.tokensFrom_of_isPlain`). From such a row of tokens the
grammar derives nothing but its first token on its own, since a number joins nothing and behind the
word, which might be an operator, there is no operand (`Derives.stands`).

The numeral of a number starts with a decimal digit, and a name does not. So **a plain text that is
a name and no truth value is an expression only as a variable**.
-/

namespace Pseudocode

namespace Text

/-- Beyond letters, the underscore and digits, a plain character lies beyond ASCII. -/
private theorem toNat_ge_of_isPlain {c : Char} (hc : isPlain c = true)
    (hletter : (isLetter c || c == '_') = false) (hdigit : isDigit c = false) :
    0x80 ≤ c.toNat := by
  refine Nat.not_lt.mp fun hlt => ?_
  have h := of_ascii (P := fun c => isPlain c = true →
    (isLetter c || c == '_' || isDigit c) = true) (by decide) hlt hc
  rw [hletter, hdigit] at h
  cases h

private theorem ne_of_toNat_ge {c d : Char} (hc : 0x80 ≤ c.toNat) (hd : d.toNat < 0x80) :
    c ≠ d := by
  rintro rfl
  omega

end Text

namespace Numeral

/-- A numeral starts with a decimal digit or with a point. -/
private theorem isDecimal_of_ofToken? {c : Char} {more : Text} {n : Number}
    (h : ofToken? (c :: more) = some n) : Text.isDecimal c = true ∨ c = '.' := by
  by_cases hc : Text.isDecimal c = true
  · exact .inl hc
  rw [ofToken?] at h
  split at h
  · split at h
    · next decimal hpart =>
      -- no digit at the start means no digits at all, unless there is a point
      rw [Decimal.unsignedPart, Decimal.mantissaPart, List.takeWhile_cons_of_neg hc,
        List.dropWhile_cons_of_neg hc] at hpart
      by_cases hpoint : c = '.'
      · exact .inr hpoint
      · simp [hpoint] at hpart
    · cases h
  · split at h
    · cases h
    · next hnone => simp [hc] at hnone

end Numeral

namespace Operator

private theorem toNat_lt_of_leading? {c : Char} {more : Text} {o : Operator}
    (h : leading? (c :: more) = some o) : c.toNat < 0x80 := by
  have hpre : o.text.isPrefixOf (c :: more) = true := by simpa using List.find?_some h
  obtain ⟨u, hu⟩ := List.isPrefixOf_iff_prefix.mp hpre
  cases o <;> cases hu <;> decide

end Operator

namespace Token

open Text (isPlain isWordChar isLetter isDecimal)

/-- Numbers, and perhaps a word as the last token. -/
inductive Row : List Token → Prop where
  | nil : Row []
  | word {t : Token} {name : Text} : t.symbol = .word name → Row [t]
  | number {t : Token} {ts : List Token} {n : Number} : t.symbol = .number n → Row ts →
      Row (t :: ts)

/-- A symbol that starts with a plain character is a word or a number. -/
private theorem lexeme_of_isPlain {column : Nat} {c : Char} {more : Text} {l : Lexeme}
    (hc : isPlain c = true) (h : lexeme column c more = .ok l) :
    ((isLetter c || c == '_') = true ∧ l.symbol = .word (c :: more.takeWhile isWordChar) ∧
        l.rest = more.dropWhile isWordChar) ∨
      isDecimal c = true ∧ ∃ n, l.symbol = .number n := by
  simp only [lexeme] at h
  split at h
  · next hletter =>
    obtain rfl := Except.ok.inj h
    exact .inl ⟨hletter, rfl, rfl⟩
  next hletter =>
  have hpoint : c ≠ '.' := by
    rintro rfl
    revert hc
    decide
  split at h
  · split at h
    · next n hn =>
      obtain rfl := Except.ok.inj h
      exact .inr ⟨(Numeral.isDecimal_of_ofToken? hn).resolve_right hpoint, n, rfl⟩
    · cases h
  next hdigit =>
  have hge : 0x80 ≤ c.toNat := by
    refine Text.toNat_ge_of_isPlain hc ((Bool.not_eq_true _).mp hletter) ?_
    simpa [hpoint] using hdigit
  have hquote : isQuote c = false := by
    simp [isQuote, Text.ne_of_toNat_ge hge (d := Text.doubleQuote) (by decide),
      Text.ne_of_toNat_ge hge (d := Text.singleQuote) (by decide)]
  have hoperator : Operator.leading? (c :: more) = none :=
    Option.eq_none_iff_forall_ne_some.mpr fun o ho =>
      absurd (Operator.toNat_lt_of_leading? ho) (Nat.not_lt.mpr hge)
  simp [hquote, hoperator, Text.ne_of_toNat_ge hge (d := '(') (by decide),
    Text.ne_of_toNat_ge hge (d := ')') (by decide), Text.ne_of_toNat_ge hge (d := '[') (by decide),
    Text.ne_of_toNat_ge hge (d := ']') (by decide),
    Text.ne_of_toNat_ge hge (d := ',') (by decide)] at h

private theorem row_cons_iff {t : Token} {ts : List Token} : Row (t :: ts) ↔
    (∃ n, t.symbol = .number n ∧ Row ts) ∨ ∃ name, t.symbol = .word name ∧ ts = [] := by
  constructor
  · intro h
    cases h with
    | word ht => exact .inr ⟨_, ht, rfl⟩
    | number ht hts => exact .inl ⟨_, ht, hts⟩
  · rintro (⟨n, ht, hts⟩ | ⟨name, ht, rfl⟩)
    · exact .number ht hts
    · exact .word ht

private theorem Row.tail {t : Token} {ts : List Token} (h : Row (t :: ts)) : Row ts := by
  rcases row_cons_iff.mp h with ⟨_, -, hts⟩ | ⟨_, -, rfl⟩
  · exact hts
  · exact .nil

/-- **The tokens of a plain text**: a word that is the whole text, or a number and a row of further
tokens. -/
theorem tokensFrom_of_isPlain {column : Nat} {c : Char} {more : Text} {tokens : List Token}
    (hplain : ∀ k ∈ c :: more, isPlain k = true)
    (h : tokensFrom column (c :: more) = .ok tokens) :
    ((isLetter c || c == '_') = true ∧ tokens = [⟨.word (c :: more), column⟩]) ∨
      isDecimal c = true ∧ ∃ n ts, tokens = ⟨.number n, column⟩ :: ts ∧ Row ts := by
  obtain ⟨size, hsize⟩ : ∃ size, size = more.length := ⟨_, rfl⟩
  induction size using Nat.strongRecOn generalizing column c more tokens with
  | ind size ih =>
    have hc := hplain c List.mem_cons_self
    obtain ⟨l, ts, hl, hts, rfl⟩ := exists_lexeme_of_tokensFrom (Text.isPlain_iff.mp hc).1 h
    have hrest : l.rest <:+ c :: more := ⟨l.text, (lexeme_append hl).1⟩
    have hshort : l.rest.length ≤ more.length := lexeme_rest_le hl
    -- what is left is again plain, and if there is anything it can go on in a word
    have hnext : (l.rest = [] ∧ ts = []) ∨
        (∃ d rest, l.rest = d :: rest ∧ isWordChar d = true) ∧ Row ts := by
      cases hd : l.rest with
      | nil =>
        rw [hd, tokensFrom] at hts
        exact .inl ⟨rfl, (Except.ok.inj hts).symm⟩
      | cons d rest =>
        rw [hd] at hts hrest hshort
        have hsub := fun k hk => hplain k (hrest.subset hk)
        rcases ih rest.length (by simp only [List.length_cons] at hshort; omega) hsub hts rfl with
          ⟨hletter, rfl⟩ | ⟨hdecimal, n, us, rfl, hus⟩
        · exact .inr ⟨⟨d, rest, rfl, Text.isWordChar_of_isLetter hletter⟩, .word rfl⟩
        · exact .inr ⟨⟨d, rest, rfl, Text.isWordChar_of_isDecimal hdecimal⟩, .number rfl hus⟩
    rcases lexeme_of_isPlain hc hl with ⟨hletter, hsymbol, hdrop⟩ | ⟨hdecimal, n, hsymbol⟩
    · refine .inl ⟨hletter, ?_⟩
      rcases hnext with ⟨hnil, rfl⟩ | ⟨⟨d, rest, hd, hword⟩, -⟩
      · have htake := List.takeWhile_append_dropWhile (p := isWordChar) (l := more)
        rw [← hdrop, hnil, List.append_nil] at htake
        rw [hsymbol, htake]
      · have hhead := List.head?_dropWhile_not isWordChar more
        rw [← hdrop, hd] at hhead
        simp [hword] at hhead
    · refine .inr ⟨hdecimal, n, ts, by rw [hsymbol], ?_⟩
      rcases hnext with ⟨-, rfl⟩ | ⟨-, hrow⟩
      · exact .nil
      · exact hrow

end Token

namespace Grammar

open Token (Row row_cons_iff)

/-- What a symbol is as an expression of its own. -/
inductive Stands : Symbol → Expr → Prop where
  | number (n : Number) : Stands (.number n) (.number n)
  | truth {name : Text} (b : Bool) : ¬ IsName name → Stands (.word name) (.bool b)
  | name {name : Text} : IsName name → Stands (.word name) (.variable name)

/-- A number or a word takes no operand from a row of tokens. -/
private theorem not_derives_of_joins {p : Phrase} {l : Level} {t : Token} {ts rest : List Token}
    {a b e right : Expr} (hrow : Row (t :: ts)) (hjoins : Joins a b l t.symbol e) :
    ¬ Derives p ts right rest := by
  intro h
  rcases row_cons_iff.mp hrow with ⟨n, ht, -⟩ | ⟨name, -, rfl⟩
  · rw [ht] at hjoins
    cases hjoins with
    | o hw | or hw | y hw | and hw | mod hw =>
      obtain ⟨_, hw, -⟩ := hw
      cases hw
  · obtain ⟨_, _, hnil, -⟩ := h.head
    cases hnil

/-- A row of tokens does not start with a negation. -/
private theorem not_negates_of_row {ts : List Token} (hrow : Row ts) : ¬ Negates ts := by
  rintro (ht | ⟨hw, -⟩)
  · rcases row_cons_iff.mp hrow with ⟨n, hn, -⟩ | ⟨name, hn, -⟩ <;> cases hn.symm.trans ht
  · rcases row_cons_iff.mp hrow with ⟨n, hn, -⟩ | ⟨name, -, hnil⟩
    · rcases hw with ⟨_, hw, -⟩ | ⟨_, hw, -⟩ <;> cases hn.symm.trans hw
    · cases hnil

private theorem not_row_of_symbol {t : Token} {ts : List Token} {s : Symbol} (ht : t.symbol = s)
    (hnumber : ∀ n, s ≠ .number n) (hword : ∀ name, s ≠ .word name) : ¬ Row (t :: ts) := by
  intro hrow
  rcases row_cons_iff.mp hrow with ⟨n, hn, -⟩ | ⟨name, hn, -⟩
  · exact hnumber n (ht.symm.trans hn)
  · exact hword name (ht.symm.trans hn)

private theorem not_row_of_word {t u : Token} {ts : List Token} {name : Text}
    (ht : t.symbol = .word name) :
    ¬ Row (t :: u :: ts) := by
  intro hrow
  rcases row_cons_iff.mp hrow with ⟨n, hn, -⟩ | ⟨name, -, hnil⟩
  · cases ht.symm.trans hn
  · cases hnil

/-- **From a row of tokens nothing is derived but the first of them.** -/
theorem Derives.stands {p : Phrase} {ts rest : List Token} {e : Expr} :
    Derives p ts e rest → Row ts → ∃ t, ts = t :: rest ∧ Stands t.symbol e
  | .operand h, hrow | .compare _ h, hrow | .unsigned h, hrow | .base h, hrow => h.stands hrow
  | .join h hjoins h', hrow => by
    obtain ⟨first, rfl, -⟩ := h.stands hrow
    exact absurd h' (not_derives_of_joins hrow.tail hjoins)
  | .negate hn _, hrow => absurd hn (not_negates_of_row hrow)
  | .minus ht _, hrow | .plus ht _, hrow => absurd hrow (not_row_of_symbol ht nofun nofun)
  | .raise h hraise _, hrow => by
    obtain ⟨first, rfl, -⟩ := h.stands hrow
    rcases hraise with ht | ht <;> exact absurd hrow.tail (not_row_of_symbol ht nofun nofun)
  | .number ht, _ => ⟨_, rfl, ht ▸ .number _⟩
  | .string ht, hrow => absurd hrow (not_row_of_symbol ht nofun nofun)
  | .verdadero ⟨_, ht, hname⟩, _ => ⟨_, rfl, ht ▸ .truth true fun h => h.1 hname⟩
  | .falso ⟨_, ht, hname⟩, _ => ⟨_, rfl, ht ▸ .truth false fun h => h.2 hname⟩
  | .name ht hname, _ => ⟨_, rfl, ht ▸ .name hname⟩
  | .element ht _ _ _ _, hrow | .callNone ht _ _ _, hrow | .call ht _ _ _, hrow =>
    absurd hrow (not_row_of_word ht)
  | .parenthesized ht _ _, hrow => absurd hrow (not_row_of_symbol ht nofun nofun)

/-- A text is an expression if the grammar derives one from all its tokens. -/
theorem parse_eq_ok_iff {p : Text} {e : Expr} : Expr.parse p = .ok e ↔
    ∃ tokens, Token.tokensFrom 1 p.trim = .ok tokens ∧
      Derives (.level .disjunction) tokens e [] := by
  cases htokens : Token.tokensFrom 1 p.trim with
  | error problem =>
    have hscan : scan p = .error (.within p.trim problem) := by rw [scan, htokens]
    rw [Expr.parse, hscan]
    refine iff_of_false (fun h => by cases h) ?_
    rintro ⟨tokens, htokens, -⟩
    cases htokens
  | ok tokens =>
    have hscan := scan_of_tokensFrom htokens
    rw [parse_eq_of_scan hscan]
    constructor
    · intro h
      cases hof : Expr.ofTokens tokens with
      | error problem =>
        rw [hof] at h
        cases h
      | ok tree =>
        rw [hof] at h
        obtain rfl := Except.ok.inj h
        exact ⟨tokens, rfl, ofTokens_eq_ok_iff.mp hof⟩
    · rintro ⟨_, ⟨⟩, h⟩
      rw [ofTokens_eq_ok_iff.mpr h]
      rfl

end Grammar

/-- What a plain text is as an expression. -/
inductive Plainly (p : Text) : Expr → Prop where
  | number (n : Number) : (∃ c ∈ p.head?, Text.isDecimal c = true) → Plainly p (.number n)
  | truth (b : Bool) : ¬ Grammar.IsName p → Plainly p (.bool b)
  | name : Grammar.IsName p → Plainly p (.variable p)

/-- **A plain text that is an expression is a number, a truth value or the name of a variable.** -/
theorem plainly_of_parse {p : Text} {e : Expr} (hplain : ∀ k ∈ p, Text.isPlain k = true)
    (h : Expr.parse p = .ok e) : Plainly p e := by
  obtain ⟨tokens, htokens, hderives⟩ := Grammar.parse_eq_ok_iff.mp h
  have htrimmed : p.Trimmed :=
    Text.trimmed_of_forall fun k hk => (Text.isPlain_iff.mp (hplain k hk)).1
  rw [htrimmed.trim_eq] at htokens
  cases p with
  | nil =>
    rw [Token.tokensFrom] at htokens
    obtain rfl := Except.ok.inj htokens
    obtain ⟨_, _, hnil, -⟩ := hderives.head
    cases hnil
  | cons c more =>
    rcases Token.tokensFrom_of_isPlain hplain htokens with
      ⟨-, rfl⟩ | ⟨hdecimal, n, ts, rfl, hrow⟩
    · obtain ⟨_, hcons, hstands⟩ := hderives.stands (.word rfl)
      cases hcons
      cases hstands with
      | truth b hname => exact .truth b hname
      | name hname => exact .name hname
    · obtain ⟨_, hcons, hstands⟩ := hderives.stands (.number rfl hrow)
      cases hcons
      cases hstands
      exact .number n ⟨c, rfl, hdecimal⟩

end Pseudocode
