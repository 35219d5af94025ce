import Mathlib.Data.List.TakeWhile
import Pseudocode.Proofs.Numeral.Grammar
import Pseudocode.Proofs.Token.Written

/-!
# What a symbol takes in

`Token.Lexed` says by cases what a symbol at the start of a text is and what it leaves behind, and
`lexeme_eq_ok_iff` that these are all the cases, at whatever column the text stands. `Token.Reads`
goes on to a whole text: it has these symbols, and blanks between them.

A symbol ends where the class of its characters ends, or at its closing quote. Nothing that comes
later has a say in it, so **a text that breaks off behind a symbol is read as the same symbol**
(`Lexed.shorten`): what is left of the rest may be any front part of it.
-/

namespace Pseudocode.Token

/-- A character that is a symbol by itself. -/
inductive IsMark : Char → Symbol → Prop where
  | openParen : IsMark '(' (.paren true)
  | closeParen : IsMark ')' (.paren false)
  | openBracket : IsMark '[' (.bracket true)
  | closeBracket : IsMark ']' (.bracket false)
  | comma : IsMark ',' .comma

/-- The symbol that starts with the character `c` and goes on with `more`, by its kind. -/
inductive Lexed (c : Char) (more : Text) : Lexeme → Prop where
  | word : (Text.isLetter c || c == '_') = true →
      Lexed c more ⟨.word (c :: more.takeWhile Text.isWordChar),
        c :: more.takeWhile Text.isWordChar, more.dropWhile Text.isWordChar⟩
  | number {n : Number} : (Text.isLetter c || c == '_') = false →
      (Text.isDigit c || (c == '.' && more.head?.any Text.isDigit)) = true →
      Numeral.ofToken? (numeralText c more).1 = some n →
      Lexed c more ⟨.number n, (numeralText c more).1, (numeralText c more).2⟩
  | string {content rest : Text} : isQuote c = true → content.contains c = false →
      more = content ++ [c] ++ rest → Lexed c more ⟨.string content, c :: (content ++ [c]), rest⟩
  | mark {s : Symbol} : IsMark c s → Lexed c more ⟨s, [c], more⟩
  | operator {o : Operator} : Operator.leading? (c :: more) = some o →
      Lexed c more ⟨.operator o, o.text, (c :: more).drop o.text.length⟩

/-- Whether a character opens or closes something, or separates: a quote, a bracket or a comma. -/
def isActive (c : Char) : Bool := isQuote c || ['(', ')', '[', ']', ','].contains c

/-- The characters of the signs start no other symbol. -/
private theorem all_operator_text (o : Operator) : o.text.all (fun c =>
    !(Text.isLetter c || c == '_') && !(Text.isDigit c || c == '.') && !isActive c) = true := by
  cases o <;> decide

private theorem mem_operator_text {o : Operator} {c : Char} {more : Text}
    (h : Operator.leading? (c :: more) = some o) : c ∈ o.text := by
  obtain ⟨k, rest, hk⟩ := List.exists_cons_of_ne_nil (operator_text_ne_nil o)
  have htext := operator_text_append h
  rw [hk] at htext ⊢
  rw [(List.cons.inj htext).1]
  exact List.mem_cons_self

/-- What is read as a symbol is one, by its kind. -/
private theorem lexed_of_lexeme {column : Nat} {c : Char} {more : Text} {l : Lexeme}
    (h : lexeme column c more = .ok l) : Lexed c more l := by
  simp only [lexeme] at h
  split at h
  · next hletter =>
    obtain rfl := Except.ok.inj h
    exact .word hletter
  next hletter =>
  split at h
  · next hdigit =>
    split at h
    · next n hn =>
      obtain rfl := Except.ok.inj h
      exact .number ((Bool.not_eq_true _).mp hletter) hdigit hn
    · cases h
  split at h
  · next hquote =>
    split at h
    · cases h
    · next closing rest hdrop =>
      obtain rfl := Except.ok.inj h
      -- the search for the closing quote ends at a character that is one
      have hclosing : closing = c := by
        have hhead := List.head?_dropWhile_not (· != c) more
        rw [hdrop] at hhead
        simpa using hhead
      subst hclosing
      refine .string hquote ?_ ?_
      · refine Bool.eq_false_iff.mpr fun hmem => ?_
        have hne := List.mem_takeWhile_imp (List.contains_iff_mem.mp hmem)
        simp at hne
      · rw [List.append_assoc, List.singleton_append, ← hdrop, List.takeWhile_append_dropWhile]
  iterate 5
    split at h
    · next hc =>
      obtain rfl := Except.ok.inj h
      obtain rfl := beq_iff_eq.mp hc
      exact .mark (by constructor)
  split at h
  · next o ho =>
    obtain rfl := Except.ok.inj h
    exact .operator ho
  · cases h

/-- **The kinds of symbols**, at whatever column the text stands. -/
theorem lexeme_eq_ok_iff {column : Nat} {c : Char} {more : Text} {l : Lexeme} :
    lexeme column c more = .ok l ↔ Lexed c more l := by
  refine ⟨lexed_of_lexeme, fun h => ?_⟩
  cases h with
  | word hletter =>
    simp only [lexeme]
    rw [if_pos hletter]
  | number hletter hdigit hn =>
    simp only [lexeme]
    rw [if_neg (by simp [hletter]), if_pos hdigit, hn]
  | string hquote hcontent hmore =>
    subst hmore
    exact lexeme_string hquote column hcontent
  | mark hmark => cases hmark <;> rfl
  | operator ho =>
    have hc := List.all_eq_true.mp (all_operator_text _) c (mem_operator_text ho)
    simp only [isActive, Bool.and_eq_true, Bool.not_eq_true', Bool.or_eq_false_iff] at hc
    obtain ⟨⟨⟨hletter, hunderscore⟩, hdigit, hpoint⟩, hquote, hmark⟩ := hc
    simp only [List.contains_cons, Bool.or_eq_false_iff] at hmark
    simp only [lexeme, hletter, hunderscore, hdigit, hpoint, hquote, hmark, ho]
    rfl

/-! ### Texts that break off behind a symbol -/

section Front

variable {c : Char} {more front : Text}

/-- A run of a class ends at the same place if the text breaks off somewhere behind it. -/
private theorem takeWhile_front {p : Char → Bool} {t : Text} (h : front <+: t.dropWhile p) :
    (t.takeWhile p ++ front).takeWhile p = t.takeWhile p ∧
      (t.takeWhile p ++ front).dropWhile p = front := by
  have hrun : ∀ k ∈ t.takeWhile p, p k = true := fun _ => List.mem_takeWhile_imp
  rw [List.takeWhile_append_of_pos hrun, List.dropWhile_append_of_pos hrun]
  cases front with
  | nil => simp
  | cons k rest =>
    have hk : p k = false := by
      obtain ⟨_, happend⟩ := h
      have hhead := List.head?_dropWhile_not p t
      rw [← happend] at hhead
      exact hhead
    simp [hk]

/-- Digits behind a sign that may be missing. -/
private theorem signText_digits {t digits : Text}
    (h : (Decimal.signText t).2.takeWhile Text.isDecimal = digits) (hne : digits ≠ [])
    (rest : Text) :
    Decimal.signText ((Decimal.signText t).1 ++ (digits ++ rest)) =
      ((Decimal.signText t).1, digits ++ rest) :=
  (Decimal.signed_signText t).signText_eq hne
    (fun _ hd => List.mem_takeWhile_imp (h ▸ hd : _ ∈ List.takeWhile _ (Decimal.signText t).2)) rest

/-- Where no digits follow, there are none if the text breaks off. -/
private theorem takeWhile_signText_eq_nil {t : Text} (hfront : front <+: t)
    (h : (Decimal.signText t).2.takeWhile Text.isDecimal = []) :
    (Decimal.signText front).2.takeWhile Text.isDecimal = [] := by
  have hsub : (Decimal.signText front).2 <+: (Decimal.signText t).2 := by
    obtain ⟨rest, rfl⟩ := hfront
    cases front with
    | nil => exact List.nil_prefix
    | cons k front =>
      unfold Decimal.signText
      split <;> simp_all
  cases hf : (Decimal.signText front).2 with
  | nil => rfl
  | cons d rest =>
    obtain ⟨_, ht⟩ := hsub
    rw [hf] at ht
    rw [← ht] at h
    by_cases hd : Text.isDecimal d = true
    · simp [hd] at h
    · simp [hd]

/-- An exponent, or that there is none, does not depend on what breaks off behind it. -/
private theorem exponentText_front {t : Text} (h : front <+: (Decimal.exponentText t).2) :
    Decimal.exponentText ((Decimal.exponentText t).1 ++ front) =
      ((Decimal.exponentText t).1, front) := by
  cases t with
  | nil =>
    obtain rfl := List.prefix_nil.mp h
    rfl
  | cons e t =>
    simp only [Decimal.exponentText] at h ⊢
    split at h
    · next hpower =>
      rw [if_pos hpower]
      obtain ⟨hrun, hrest⟩ := takeWhile_front h
      have hsign := signText_digits rfl hpower.2 front
      simp only [List.cons_append, List.append_assoc, hsign, hrun, hrest]
      rw [if_pos hpower]
    · next hpower =>
      rw [if_neg hpower]
      cases front with
      | nil => rfl
      | cons k front =>
        obtain ⟨rfl, hfront⟩ := List.cons_prefix_cons.mp h
        simp only [List.nil_append]
        refine if_neg ?_
        rintro ⟨he, hdigits⟩
        refine hdigits (takeWhile_signText_eq_nil hfront ?_)
        exact not_not.mp fun hne => hpower ⟨he, hne⟩

/-- A numeral ends at the same place if the text breaks off somewhere behind it. -/
private theorem numeralText_front (h : front <+: (numeralText c more).2) :
    numeralText c ((numeralText c more).1.tail ++ front) = ((numeralText c more).1, front) := by
  simp only [numeralText] at h ⊢
  have hpower := Decimal.exponentText_append (more.dropWhile isNumeralChar)
  have hfront : (Decimal.exponentText (more.dropWhile isNumeralChar)).1 ++ front <+:
      more.dropWhile isNumeralChar :=
    ((List.prefix_append_right_inj _).mpr h).trans ⟨[], by rw [List.append_nil, hpower]⟩
  obtain ⟨hrun, hrest⟩ := takeWhile_front hfront
  simp only [List.cons_append, List.tail_cons, List.append_assoc, hrun, hrest,
    exponentText_front h]

/-- The longest sign at the start of a text does not depend on what breaks off behind it. -/
private theorem leading?_front {o : Operator} {t : Text} (h : Operator.leading? t = some o)
    (hfront : front <+: t.drop o.text.length) : Operator.leading? (o.text ++ front) = some o := by
  obtain ⟨-, longer, shorter, hall, hlonger⟩ := List.find?_eq_some_iff_append.mp h
  refine List.find?_eq_some_iff_append.mpr ⟨?_, longer, shorter, hall, fun o' ho' => ?_⟩
  · exact List.isPrefixOf_iff_prefix.mpr (List.prefix_append _ _)
  · have hno := hlonger o' ho'
    rw [Bool.not_eq_true'] at hno ⊢
    refine Bool.eq_false_iff.mpr fun hyes => Bool.eq_false_iff.mp hno ?_
    rw [List.isPrefixOf_iff_prefix] at hyes ⊢
    refine hyes.trans ?_
    exact operator_text_append h ▸ (List.prefix_append_right_inj _).mpr hfront

/-- The characters of a symbol, and what is behind them. -/
theorem Lexed.append {l : Lexeme} (h : Lexed c more l) :
    l.text = c :: l.text.tail ∧ more = l.text.tail ++ l.rest := by
  obtain ⟨happend, hne⟩ := lexeme_append ((@lexeme_eq_ok_iff 1 c more l).mpr h)
  obtain ⟨k, tail, htext⟩ := List.exists_cons_of_ne_nil hne
  rw [htext] at happend ⊢
  obtain ⟨rfl, hmore⟩ := List.cons.inj happend
  exact ⟨rfl, hmore.symm⟩

/-- **A text that breaks off behind a symbol is read as the same symbol.** -/
theorem Lexed.shorten {l : Lexeme} (h : Lexed c more l) (hfront : front <+: l.rest) :
    Lexed c (l.text.tail ++ front) ⟨l.symbol, l.text, front⟩ := by
  cases h with
  | word hletter =>
    obtain ⟨hrun, hrest⟩ := takeWhile_front hfront
    have hlexed := @Lexed.word c (more.takeWhile Text.isWordChar ++ front) hletter
    rwa [hrun, hrest] at hlexed
  | number hletter hdigit hn =>
    have htext := numeralText_front (c := c) hfront
    have hstart : (Text.isDigit c ||
        (c == '.' && ((numeralText c more).1.tail ++ front).head?.any Text.isDigit)) = true := by
      rcases (Bool.or_eq_true _ _).mp hdigit with hc | hpoint
      · rw [hc, Bool.true_or]
      · obtain ⟨hc, hany⟩ := (Bool.and_eq_true _ _).mp hpoint
        cases more with
        | nil => cases hany
        | cons d more =>
          have hd : Text.isDigit d = true := hany
          have hrun : isNumeralChar d = true := by rw [isNumeralChar, hd, Bool.true_or]
          simp [numeralText, hrun, hc, hd]
    have hlexed := Lexed.number hletter hstart (by rw [htext]; exact hn)
    rwa [htext] at hlexed
  | string hquote hcontent hmore => exact .string hquote hcontent rfl
  | mark hmark => exact .mark hmark
  | @operator o ho =>
    have hshort := leading?_front ho hfront
    have htext : o.text = c :: o.text.tail := (Lexed.append (.operator ho)).1
    have hmore : o.text ++ front = c :: (o.text.tail ++ front) := congrArg (· ++ front) htext
    have hlexed := Lexed.operator (hmore ▸ hshort)
    rwa [← hmore, List.drop_left] at hlexed

end Front

/-! ### The symbols of a text -/

/-- A text has these symbols in this order, with blanks around them. -/
inductive Reads : Text → List Symbol → Prop where
  | nil : Reads [] []
  | blank {c : Char} {t : Text} {ss : List Symbol} : Text.isBlank c = true → Reads t ss →
      Reads (c :: t) ss
  | symbol {c : Char} {more : Text} {l : Lexeme} {ss : List Symbol} : Text.isBlank c = false →
      Lexed c more l → Reads l.rest ss → Reads (c :: more) (l.symbol :: ss)

/-- The symbols of the tokens are read one after the other. -/
theorem reads_of_tokensFrom {column : Nat} {t : Text} {tokens : List Token}
    (h : tokensFrom column t = .ok tokens) : Reads t (tokens.map (·.symbol)) := by
  induction hn : t.length using Nat.strongRecOn generalizing t column tokens with
  | ind n ih =>
    subst hn
    cases t with
    | nil =>
      rw [tokensFrom] at h
      obtain rfl := Except.ok.inj h
      exact .nil
    | cons c more =>
      by_cases hblank : Text.isBlank c = true
      · rw [tokensFrom, if_pos hblank] at h
        exact .blank hblank (ih _ (Nat.lt_succ_self _) h rfl)
      · have hblank := (Bool.not_eq_true _).mp hblank
        obtain ⟨l, ts, hl, hts, rfl⟩ := exists_lexeme_of_tokensFrom hblank h
        exact .symbol hblank (lexeme_eq_ok_iff.mp hl)
          (ih _ (Nat.lt_succ_of_le (lexeme_rest_le hl)) hts rfl)

/-- Symbols that are read one after the other are those of the tokens, from any column on. -/
theorem Reads.exists_tokensFrom {t : Text} {ss : List Symbol} (h : Reads t ss) (column : Nat) :
    ∃ tokens, tokensFrom column t = .ok tokens ∧ tokens.map (·.symbol) = ss := by
  induction h generalizing column with
  | nil => exact ⟨[], by rw [tokensFrom], rfl⟩
  | blank hblank _ ih =>
    rw [tokensFrom, if_pos hblank]
    exact ih (column + 1)
  | @symbol c more l ss hblank hlexed _ ih =>
    obtain ⟨tokens, htokens, rfl⟩ := ih (column + l.text.length)
    refine ⟨⟨l.symbol, column⟩ :: tokens, ?_, rfl⟩
    rw [tokensFrom_of_lexeme hblank (lexeme_eq_ok_iff.mpr hlexed), htokens]
    rfl

/-- A text without symbols is blank. -/
theorem Reads.eq_nil_iff {t : Text} {ss : List Symbol} (h : Reads t ss) :
    ss = [] ↔ ∀ c ∈ t, Text.isBlank c = true := by
  induction h with
  | nil => exact iff_of_true rfl (List.forall_mem_nil _)
  | blank hblank _ ih => rw [ih, List.forall_mem_cons, and_iff_right hblank]
  | symbol hblank _ _ _ =>
    refine iff_of_false (List.cons_ne_nil _ _) fun hall => ?_
    rw [hall _ List.mem_cons_self] at hblank
    cases hblank

/-- Blanks in front of the symbols may be dropped. -/
private theorem Reads.dropWhile_isBlank {t : Text} {ss : List Symbol} (h : Reads t ss) :
    Reads (t.dropWhile Text.isBlank) ss := by
  induction h with
  | nil => exact .nil
  | blank hblank _ ih => rwa [List.dropWhile_cons_of_pos hblank]
  | symbol hblank hlexed hrest _ =>
    rw [List.dropWhile_cons_of_neg (by simp [hblank])]
    exact .symbol hblank hlexed hrest

/-! ### The characters of symbols -/

/-- Neither a blank nor a character that opens, closes or separates something. -/
def isSolid (c : Char) : Bool := !Text.isBlank c && !isActive c

private theorem isSolid_of_isWordChar {c : Char} (h : Text.isWordChar c = true) :
    isSolid c = true := by
  have hactive : isActive c = false := by
    have hall : (['"', '\'', '(', ')', '[', ']', ','].all (!Text.isWordChar ·)) = true := by
      decide
    refine Bool.eq_false_iff.mpr fun hc => ?_
    have hmem : c ∈ ['"', '\'', '(', ')', '[', ']', ','] := by
      simpa [isActive, isQuote, Text.doubleQuote, Text.singleQuote, or_assoc] using hc
    have hno := List.all_eq_true.mp hall c hmem
    rw [h] at hno
    cases hno
  rw [isSolid, Text.isBlank_eq_false_of_isWordChar h, hactive]
  rfl

private theorem isSolid_of_isNumeralChar {c : Char} (h : isNumeralChar c = true) :
    isSolid c = true := by
  rcases (Bool.or_eq_true _ _).mp h with h | h
  · exact isSolid_of_isWordChar (by simp [Text.isWordChar, Text.isNumeral, h])
  · obtain rfl := beq_iff_eq.mp h
    decide

private theorem isSolid_exponentText {t : Text} :
    ∀ k ∈ (Decimal.exponentText t).1, isSolid k = true := by
  have hsign : ∀ k ∈ (Decimal.signText t.tail).1, isSolid k = true := by
    unfold Decimal.signText
    split <;> simp <;> decide
  intro k hk
  cases t with
  | nil => cases hk
  | cons e t =>
    simp only [Decimal.exponentText] at hk
    split at hk
    · next hpower =>
      rw [List.cons_append, List.mem_cons, List.mem_append] at hk
      rcases hk with rfl | hk | hk
      · rcases hpower.1 with rfl | rfl <;> decide
      · exact hsign k hk
      · have hdecimal := List.mem_takeWhile_imp hk
        exact isSolid_of_isWordChar (Text.isWordChar_of_isDecimal hdecimal)
    · cases hk

/-- A numeral opens, closes and separates nothing. -/
theorem isSolid_numeralText {c : Char} {more : Text}
    (hc : (Text.isDigit c || (c == '.' && more.head?.any Text.isDigit)) = true) :
    ∀ k ∈ (numeralText c more).1, isSolid k = true := by
  have hstart : isNumeralChar c = true := by
    rcases (Bool.or_eq_true _ _).mp hc with hc | hc
    · rw [isNumeralChar, hc, Bool.true_or]
    · rw [isNumeralChar, ((Bool.and_eq_true _ _).mp hc).1, Bool.or_true]
  intro k hk
  simp only [numeralText, List.cons_append, List.mem_cons, List.mem_append] at hk
  rcases hk with rfl | hk | hk
  · exact isSolid_of_isNumeralChar hstart
  · exact isSolid_of_isNumeralChar (List.mem_takeWhile_imp hk)
  · exact isSolid_exponentText k hk

/-- A sign opens, closes and separates nothing. -/
theorem isSolid_operator_text (o : Operator) : ∀ k ∈ o.text, isSolid k = true :=
  List.all_eq_true.mp (by cases o <;> decide)

/-- A word opens, closes and separates nothing. -/
theorem isSolid_word {c : Char} {more : Text} (hc : (Text.isLetter c || c == '_') = true) :
    ∀ k ∈ c :: more.takeWhile Text.isWordChar, isSolid k = true := by
  refine List.forall_mem_cons.mpr ⟨isSolid_of_isWordChar (Text.isWordChar_of_isLetter hc), ?_⟩
  exact fun k hk => isSolid_of_isWordChar (List.mem_takeWhile_imp hk)

/-- A symbol that is a comma is the one character. -/
theorem Lexed.of_comma {c : Char} {more : Text} {l : Lexeme} (h : Lexed c more l)
    (hl : l.symbol = .comma) : c = ',' ∧ l.rest = more := by
  cases h with
  | mark hmark =>
    obtain rfl : _ = Symbol.comma := hl
    cases hmark
    exact ⟨rfl, rfl⟩
  | _ => cases hl

/-- No symbol ends with a blank. -/
private theorem Lexed.isBlank_getLast {c : Char} {more : Text} {l : Lexeme} (h : Lexed c more l)
    {k : Char} (hk : k ∈ l.text.getLast?) : Text.isBlank k = false := by
  have hsolid {k : Char} (hk : isSolid k = true) : Text.isBlank k = false := by
    rw [isSolid, Bool.and_eq_true] at hk
    simpa using hk.1
  cases h with
  | word hletter => exact hsolid (isSolid_word hletter k (List.mem_of_mem_getLast? hk))
  | number _ hdigit _ => exact hsolid (isSolid_numeralText hdigit k (List.mem_of_mem_getLast? hk))
  | string hquote _ _ =>
    dsimp only at hk
    rw [← List.cons_append, List.getLast?_concat] at hk
    obtain rfl := Option.some.inj hk
    rcases (Bool.or_eq_true _ _).mp hquote with hq | hq <;> rw [beq_iff_eq.mp hq] <;> decide
  | mark hmark =>
    obtain rfl := Option.some.inj hk
    cases hmark <;> decide
  | operator _ => exact hsolid (isSolid_operator_text _ k (List.mem_of_mem_getLast? hk))

/-! ### The symbols of a trimmed text -/

/-- A text keeps its symbols without blanks at its end. -/
private theorem Reads.of_append {t v : Text} {ss : List Symbol} (h : Reads (t ++ v) ss)
    (hv : ∀ c ∈ v, Text.isBlank c = true) : Reads t ss := by
  generalize hu : t ++ v = u at h
  induction h generalizing t with
  | nil =>
    obtain ⟨rfl, -⟩ := List.append_eq_nil_iff.mp hu
    exact .nil
  | blank hblank hrest ih =>
    cases t with
    | nil =>
      have hnil := (Reads.blank hblank hrest).eq_nil_iff.mpr (hu ▸ hv)
      exact hnil ▸ .nil
    | cons d t =>
      obtain ⟨rfl, htail⟩ := List.cons.inj hu
      exact .blank hblank (ih htail)
  | @symbol c more l ss hblank hlexed hrest ih =>
    obtain ⟨htext, hmore⟩ := hlexed.append
    rw [hmore, ← List.cons_append, ← htext] at hu
    -- the symbol does not reach into the blanks, since it does not end with one
    have hsplit : ∃ front, t = l.text ++ front ∧ l.rest = front ++ v := by
      obtain ⟨beyond, hbeyond, rfl⟩ | hsplit := List.append_eq_append_iff.mp hu
      · rcases List.eq_nil_or_concat' beyond with rfl | ⟨bs, b, rfl⟩
        · exact ⟨[], by simpa using hbeyond.symm, rfl⟩
        · have hlast : b ∈ l.text.getLast? := by
            rw [hbeyond, ← List.append_assoc, List.getLast?_concat]
            rfl
          have hb := hv b (by simp)
          rw [hlexed.isBlank_getLast hlast] at hb
          cases hb
      · exact hsplit
    obtain ⟨front, rfl, hrest'⟩ := hsplit
    rw [htext, List.cons_append]
    have hshort := hlexed.shorten (hrest' ▸ List.prefix_append front v)
    exact Reads.symbol (l := ⟨l.symbol, l.text, front⟩) hblank hshort (ih hrest'.symm)

/-- The same symbols are read from the trimmed text. -/
theorem Reads.trim {t : Text} {ss : List Symbol} (h : Reads t ss) : Reads t.trim ss := by
  obtain ⟨v, hv, hblank⟩ := Text.exists_eq_trimEnd_append t.trimStart
  have hstart : Reads t.trimStart ss := h.dropWhile_isBlank
  rw [hv] at hstart
  exact hstart.of_append hblank

end Pseudocode.Token
