import Pseudocode.Proofs.Token.Lexed

/-!
# Nothing is lost in tokens

A text is cut into lexemes with blanks between them. `Token.Spells` says which texts are lexemes and
what they stand for, apart from how they are found: a word stands for itself, a numeral for the
number that it denotes, a string between quotes for what is between them, and so on.

**The tokens of a text tell all of it but the blanks** (`scan_lossless`). The first token stands at
the first column, and from the column of each token to that of the next there is a lexeme of the
token and nothing behind it but blanks. Each lexeme is the longest that there is at its place, be it
a word, a numeral or an operator. A text that has no tokens is like this up to a column at which no
symbol can be read (`Token.Unreadable`), and the fault says why.

The columns are dealt with in two steps. `Token.Laid` follows the recursion of the scanner and has
the lexemes one after the other; `Token.Lossless` looks them up in the text by the columns.
-/

namespace Pseudocode

namespace Token

open Decimal Numeral

/-! ### Lexemes -/

/-- A text is a lexeme of a symbol. -/
inductive Spells : Symbol → Text → Prop where
  | word {name : Text} : name.isIdentifier = true → Spells (.word name) name
  | number {t : Text} {n : Number} : Denotes t n → Spells (.number n) t
  | string {q : Char} {content : Text} : isQuote q = true → q ∉ content →
      Spells (.string content) (q :: (content ++ [q]))
  | mark {c : Char} {s : Symbol} : IsMark c s → Spells s [c]
  | operator (o : Operator) : Spells (.operator o) o.text

/-- No lexeme at the start of a text is longer. -/
def Longest (lexeme t : Text) : Prop := ∀ s l, Spells s l → l <+: t → l.length ≤ lexeme.length

/-- Whether a numeral starts with the character `c` before `more`. -/
def startsNumeral (c : Char) (more : Text) : Bool :=
  Text.isDigit c || (c == '.' && more.head?.any Text.isDigit)

variable {c : Char} {more : Text} {l : Lexeme}

/-- What a symbol takes in is a lexeme of it. -/
private theorem Lexed.spells (h : Lexed c more l) : Spells l.symbol l.text := by
  cases h with
  | word hletter =>
    refine .word ?_
    rw [Text.isIdentifier, hletter, List.all_takeWhile]
    rfl
  | number _ _ hn => exact .number (ofToken?_eq_some_iff.mp hn)
  | string hquote hcontent _ =>
    refine .string hquote fun hmem => ?_
    rw [List.contains_iff_mem.mpr hmem] at hcontent
    cases hcontent
  | mark hmark => exact .mark hmark
  | operator _ => exact .operator _

/-- A text starts with one symbol at most. -/
private theorem Lexed.unique {l' : Lexeme} (h : Lexed c more l) (h' : Lexed c more l') : l = l' :=
  Except.ok.inj ((lexeme_eq_ok_iff.mpr h).symm.trans ((@lexeme_eq_ok_iff 1 c more l').mpr h'))

/-- Where a numeral starts, a symbol is a numeral. -/
private theorem Lexed.text_of_startsNumeral (h : Lexed c more l)
    (hletter : (Text.isLetter c || c == '_') = false) (hstart : startsNumeral c more = true) :
    l.text = (numeralText c more).1 := by
  have hlexeme := (@lexeme_eq_ok_iff 1 c more l).mpr h
  rw [startsNumeral] at hstart
  simp only [lexeme] at hlexeme
  rw [if_neg (by rw [hletter]; exact Bool.false_ne_true), if_pos hstart] at hlexeme
  split at hlexeme
  · rw [← Except.ok.inj hlexeme]
  · cases hlexeme

/-! ### Numerals are as long as they can be -/

/-- A decimal digit is no letter. -/
private theorem isLetter_of_isDecimal (h : Text.isDecimal c = true) :
    (Text.isLetter c || c == '_') = false := by
  by_cases hascii : c.toNat < 0x80
  · exact Text.of_ascii
      (P := fun c => Text.isDecimal c = true → (Text.isLetter c || c == '_') = false)
      (by decide) hascii h
  · have hapart : (Text.decimalRanges.all fun q => Text.letterRanges.all fun p =>
        p.2.blt q.1 || q.2.blt p.1) = true := by
      decide +kernel
    rw [Text.isDecimal, if_neg hascii] at h
    obtain ⟨q, hq, hlow, hhigh⟩ := Text.mem_of_has h
    refine Bool.or_eq_false_iff.mpr ⟨(Bool.not_eq_true _).mp fun hletter => ?_, ?_⟩
    · rw [Text.isLetter, if_neg hascii] at hletter
      obtain ⟨p, hp, hlow', hhigh'⟩ := Text.mem_of_has hletter
      have hpq := List.all_eq_true.mp (List.all_eq_true.mp hapart q hq) p hp
      simp only [Bool.or_eq_true, Nat.blt_eq] at hpq
      omega
    · refine beq_eq_false_iff_ne.mpr ?_
      rintro rfl
      exact hascii (by decide)

private theorem isNumeralChar_of_isDecimal (h : Text.isDecimal c = true) :
    isNumeralChar c = true := by
  simp [isNumeralChar, Text.isDigit, h]

section Numerals

variable {m whole fraction power t : Text} {e : Int} {n : Number}

private theorem mantissa_chars (h : Mantissa m whole fraction) :
    ∀ k ∈ m, isNumeralChar k = true := by
  cases h with
  | plain _ hdigits => exact fun k hk => isNumeralChar_of_isDecimal (hdigits k hk)
  | pointed _ hwhole hfraction =>
    intro k hk
    rcases List.mem_append.mp hk with hk | hk
    · exact isNumeralChar_of_isDecimal (hwhole k hk)
    rcases List.mem_cons.mp hk with rfl | hk
    · decide
    · exact isNumeralChar_of_isDecimal (hfraction k hk)

/-- Digits start with a digit or with a point and a digit. -/
private theorem mantissa_start (h : Mantissa m whole fraction) (rest : Text) :
    ∃ c m', m = c :: m' ∧ (Text.isLetter c || c == '_') = false ∧
      startsNumeral c (m' ++ rest) = true := by
  have hdigit {d : Char} (hd : Text.isDecimal d = true) : Text.isDigit d = true := by
    rw [Text.isDigit, hd, Bool.true_or]
  cases h with
  | plain hne hdigits =>
    obtain ⟨d, m, rfl⟩ := List.exists_cons_of_ne_nil hne
    have hd := hdigits d List.mem_cons_self
    exact ⟨d, m, rfl, isLetter_of_isDecimal hd, by rw [startsNumeral, hdigit hd, Bool.true_or]⟩
  | pointed hne hwhole hfraction =>
    cases whole with
    | nil =>
      obtain ⟨d, fraction, rfl⟩ := List.exists_cons_of_ne_nil hne
      have hd := hfraction d List.mem_cons_self
      refine ⟨'.', d :: fraction, rfl, by decide, ?_⟩
      simp [startsNumeral, hdigit hd]
    | cons d whole =>
      have hd := hwhole d List.mem_cons_self
      exact ⟨d, whole ++ '.' :: fraction, rfl, isLetter_of_isDecimal hd,
        by rw [startsNumeral, hdigit hd, Bool.true_or]⟩

/-- No power of ten is longer than what is taken for one. -/
private theorem length_power_le (h : Power power e) (rest : Text) :
    power.length ≤ (exponentText (power ++ rest)).1.length := by
  cases h with
  | absent => exact Nat.zero_le _
  | @given k s digits negative hk hs hne hdigits =>
    have hk' : k = 'e' ∨ k = 'E' := by simpa using hk
    have htake : (digits ++ rest).takeWhile Text.isDecimal =
        digits ++ rest.takeWhile Text.isDecimal := List.takeWhile_append_of_pos hdigits
    have hpower : (k = 'e' ∨ k = 'E') ∧ digits ++ rest.takeWhile Text.isDecimal ≠ [] :=
      ⟨hk', List.append_ne_nil_of_left_ne_nil hne _⟩
    simp only [List.cons_append, List.append_assoc, exponentText,
      hs.signText_eq hne hdigits rest, htake]
    rw [if_pos hpower]
    simp only [List.length_cons, List.length_append]
    omega

/-- A numeral is a mantissa and a power of ten. -/
private theorem exists_of_denotes (h : Denotes t n) :
    ∃ m whole fraction power e, Mantissa m whole fraction ∧ Power power e ∧ t = m ++ power := by
  cases h with
  | integer hne hdigits _ =>
    exact ⟨t, t, [], [], 0, .plain hne hdigits, .absent, (List.append_nil t).symm⟩
  | real hm hpower _ => exact ⟨_, _, _, _, _, hm, hpower, rfl⟩

/-- A numeral at the start of a text does not reach beyond the one that is read there. -/
private theorem length_le_numeralText (h : Denotes t n) (ht : t <+: c :: more) :
    (Text.isLetter c || c == '_') = false ∧ startsNumeral c more = true ∧
      t.length ≤ (numeralText c more).1.length := by
  obtain ⟨m, whole, fraction, power, e, hm, hpower, rfl⟩ := exists_of_denotes h
  obtain ⟨rest, hrest⟩ := ht
  obtain ⟨d, m, rfl, hletter, hstart⟩ := mantissa_start hm (power ++ rest)
  rw [List.append_assoc, List.cons_append] at hrest
  obtain ⟨rfl, rfl⟩ := List.cons.inj hrest
  refine ⟨hletter, hstart, ?_⟩
  have hchars : ∀ k ∈ m, isNumeralChar k = true :=
    fun k hk => mantissa_chars hm k (List.mem_cons_of_mem _ hk)
  simp only [numeralText, List.takeWhile_append_of_pos hchars, List.dropWhile_append_of_pos hchars]
  cases power with
  | nil =>
    simp only [List.append_nil, List.length_cons, List.cons_append, List.length_append]
    omega
  | cons k power =>
    -- the power starts with a letter, at which the digits end
    have hk : ¬ isNumeralChar k = true := by
      have hletter : k = 'e' ∨ k = 'E' := by simpa using hpower.head k rfl
      rcases hletter with rfl | rfl <;> decide
    have htake : (k :: power ++ rest).takeWhile isNumeralChar = [] := List.takeWhile_cons_of_neg hk
    have hdrop : (k :: power ++ rest).dropWhile isNumeralChar = k :: power ++ rest :=
      List.dropWhile_cons_of_neg hk
    have hle := length_power_le hpower rest
    rw [htake, hdrop, List.append_nil, List.length_append, List.length_append]
    exact Nat.add_le_add_left hle _

end Numerals

/-! ### Every symbol is as long as it can be -/

/-- No sign at the start of a text is longer than the one that is read. -/
private theorem length_operator_le {o o' : Operator} {t : Text} (h : Operator.leading? t = some o)
    (ht : o'.text <+: t) : o'.text.length ≤ o.text.length := by
  have hsorted : Operator.all.Pairwise fun a b => b.text.length ≤ a.text.length := by decide
  have hmem : o' ∈ Operator.all := by cases o' <;> decide
  obtain ⟨-, longer, shorter, hall, hlonger⟩ := List.find?_eq_some_iff_append.mp h
  rw [hall] at hsorted hmem
  rcases List.mem_append.mp hmem with hmem | hmem
  · have hno := hlonger o' hmem
    rw [List.isPrefixOf_iff_prefix.mpr ht] at hno
    cases hno
  rcases List.mem_cons.mp hmem with rfl | hmem
  · exact Nat.le_refl _
  · exact (List.pairwise_cons.mp (List.pairwise_append.mp hsorted).2.1).1 o' hmem

/-- Where a lexeme stands at the start of a text, a symbol is found that is at least as long, or at
least such a numeral is tried. -/
private theorem Spells.exists_lexed {s : Symbol} {t : Text} (h : Spells s t)
    (ht : t <+: c :: more) :
    (∃ l, Lexed c more l ∧ t.length ≤ l.text.length) ∨
      (Text.isLetter c || c == '_') = false ∧ startsNumeral c more = true ∧
        t.length ≤ (numeralText c more).1.length := by
  cases h with
  | word hname =>
    refine .inl ?_
    cases t with
    | nil => cases hname
    | cons k name =>
      obtain ⟨rfl, hprefix⟩ := List.cons_prefix_cons.mp ht
      obtain ⟨hletter, hchars⟩ := (Bool.and_eq_true _ _).mp hname
      refine ⟨_, .word hletter, Nat.succ_le_succ ?_⟩
      obtain ⟨rest, rfl⟩ := hprefix
      rw [List.takeWhile_append_of_pos (List.all_eq_true.mp hchars), List.length_append]
      exact Nat.le_add_right _ _
  | number hdenotes => exact .inr (length_le_numeralText hdenotes ht)
  | @string q content hquote hcontent =>
    refine .inl ?_
    obtain ⟨rfl, rest, rfl⟩ := List.cons_prefix_cons.mp ht
    have hcontains : content.contains q = false := by simpa using hcontent
    exact ⟨_, .string hquote hcontains rfl, Nat.le_refl _⟩
  | mark hmark =>
    obtain ⟨rfl, -⟩ := List.cons_prefix_cons.mp ht
    exact .inl ⟨_, .mark hmark, Nat.le_refl _⟩
  | operator o =>
    refine .inl ?_
    cases hleading : Operator.leading? (c :: more) with
    | none =>
      have hmem : o ∈ Operator.all := by cases o <;> decide
      have hno := List.find?_eq_none.mp hleading o hmem
      exact absurd (List.isPrefixOf_iff_prefix.mpr ht) hno
    | some o' => exact ⟨_, .operator hleading, length_operator_le hleading ht⟩

/-- **The longest symbol is read.** -/
private theorem Lexed.longest (h : Lexed c more l) : Longest l.text (c :: more) := by
  intro s t hs ht
  rcases hs.exists_lexed ht with ⟨l', h', hle⟩ | ⟨hletter, hstart, hle⟩
  · rwa [h.unique h']
  · rwa [h.text_of_startsNumeral hletter hstart]

/-! ### Texts that cannot be read -/

/-- No symbol can be read at the start of a text, which stands at the given column: what looks like
a numeral denotes nothing, a quote is not closed, or there is no lexeme at all. -/
inductive Unreadable (column : Nat) : Text → Problem → Prop where
  | numeral {c : Char} {more : Text} : startsNumeral c more = true →
      (∀ n, ¬ Denotes (numeralText c more).1 n) →
      Unreadable column (c :: more) (.invalidNumeral (numeralText c more).1)
  | string {q : Char} {more : Text} : isQuote q = true → q ∉ more →
      Unreadable column (q :: more) .unclosedString
  | character {c : Char} {more : Text} : Text.isBlank c = false → startsNumeral c more = false →
      isQuote c = false → (∀ s t, Spells s t → ¬ t <+: c :: more) →
      Unreadable column (c :: more) (.unexpectedCharacter c column)

/-- Where no symbol is read, there is none, and the problem says why. -/
private theorem unreadable_of_lexeme {column : Nat} {problem : Problem}
    (hblank : Text.isBlank c = false)
    (h : lexeme column c more = .error problem) : Unreadable column (c :: more) problem := by
  have hnone (hstart : startsNumeral c more = false) (s : Symbol) (t : Text) (hs : Spells s t) :
      ¬ t <+: c :: more := by
    intro ht
    rcases hs.exists_lexed ht with ⟨l, hl, -⟩ | ⟨-, hstart', -⟩
    · rw [lexeme_eq_ok_iff.mpr hl] at h
      cases h
    · rw [hstart] at hstart'
      cases hstart'
  simp only [lexeme] at h
  split at h
  · cases h
  split at h
  · next hstart =>
    split at h
    · cases h
    · next hnumeral =>
      obtain rfl := Except.error.inj h
      refine .numeral hstart fun n hn => ?_
      rw [ofToken?_eq_some_iff.mpr hn] at hnumeral
      cases hnumeral
  next hstart =>
  split at h
  · next hquote =>
    split at h
    · next hdrop =>
      obtain rfl := Except.error.inj h
      refine .string hquote fun hmem => ?_
      have hne := List.dropWhile_eq_nil_iff.mp hdrop c hmem
      simp at hne
    · cases h
  next hquote =>
  iterate 5
    split at h
    · cases h
  split at h
  · cases h
  · obtain rfl := Except.error.inj h
    have hstart := (Bool.not_eq_true _).mp hstart
    exact .character hblank hstart ((Bool.not_eq_true _).mp hquote) (hnone hstart)

/-! ### Lexemes one after the other -/

/-- A text is put together from lexemes of tokens, each as long as it can be and with blanks behind
it, and the tokens have the columns of their lexemes. The text starts at the given column, and
`beyond` is what follows it. -/
inductive Laid (beyond : Text) : Nat → List Token → Text → Prop where
  | nil (column : Nat) : Laid beyond column [] []
  | cons {column : Nat} {s : Symbol} {lexeme gap rest : Text} {tokens : List Token} :
      Spells s lexeme → lexeme ≠ [] → (∀ k ∈ gap, Text.isBlank k = true) →
      Longest lexeme (lexeme ++ (gap ++ (rest ++ beyond))) →
      Laid beyond (column + lexeme.length + gap.length) tokens rest →
      Laid beyond column (⟨s, column⟩ :: tokens) (lexeme ++ (gap ++ rest))

/-- **Reading gets to the end of a text or to a place where no symbol can be read**, and up to there
the text is made of lexemes and blanks. -/
theorem exists_laid (column : Nat) (t : Text) : ∃ tokens gap front rest,
    t = gap ++ (front ++ rest) ∧ (∀ k ∈ gap, Text.isBlank k = true) ∧
      Laid rest (column + gap.length) tokens front ∧
      (rest = [] ∧ tokensFrom column t = .ok tokens ∨
        ∃ problem, Unreadable (column + gap.length + front.length) rest problem ∧
          tokensFrom column t = .error problem) := by
  induction hn : t.length using Nat.strongRecOn generalizing t column with
  | ind n ih =>
    subst hn
    cases t with
    | nil =>
      refine ⟨[], [], [], [], rfl, List.forall_mem_nil _, .nil _, .inl ⟨rfl, ?_⟩⟩
      rw [tokensFrom]
    | cons c more =>
      by_cases hblank : Text.isBlank c = true
      · -- one more blank in front
        obtain ⟨tokens, gap, front, rest, rfl, hgap, hlaid, hend⟩ :=
          ih _ (Nat.lt_succ_self _) (column + 1) more rfl
        have hcolumn : column + 1 + gap.length = column + (c :: gap).length := by
          rw [List.length_cons]
          omega
        rw [hcolumn] at hlaid hend
        refine ⟨tokens, c :: gap, front, rest, rfl, List.forall_mem_cons.mpr ⟨hblank, hgap⟩, hlaid,
          ?_⟩
        rw [tokensFrom, if_pos hblank]
        exact hend
      · have hblank := (Bool.not_eq_true _).mp hblank
        cases hl : lexeme column c more with
        | error problem =>
          refine ⟨[], [], [], c :: more, rfl, List.forall_mem_nil _, .nil _, .inr ⟨problem, ?_, ?_⟩⟩
          · exact unreadable_of_lexeme hblank hl
          · exact tokensFrom_of_error hblank hl
        | ok l =>
          -- a lexeme in front, with the blanks behind it
          obtain ⟨happend, hne⟩ := lexeme_append hl
          have hlexed := lexeme_eq_ok_iff.mp hl
          obtain ⟨tokens, gap, front, rest, hrest, hgap, hlaid, hend⟩ :=
            ih _ (Nat.lt_succ_of_le (lexeme_rest_le hl)) (column + l.text.length) l.rest rfl
          have hlongest := hlexed.longest
          rw [← happend, hrest] at hlongest
          refine ⟨⟨l.symbol, column⟩ :: tokens, [], l.text ++ (gap ++ front), rest, ?_,
            List.forall_mem_nil _, .cons hlexed.spells hne hgap hlongest hlaid, ?_⟩
          · rw [← happend, hrest]
            simp only [List.nil_append, List.append_assoc]
          · have hcolumn : column + l.text.length + gap.length + front.length =
                column + ([] : Text).length + (l.text ++ (gap ++ front)).length := by
              simp only [List.length_append, List.length_nil]
              omega
            rw [hcolumn] at hend
            rw [tokensFrom_of_lexeme hblank hl]
            rcases hend with ⟨hnil, htokens⟩ | ⟨problem, hproblem, herror⟩
            · exact .inl ⟨hnil, by rw [htokens]; rfl⟩
            · exact .inr ⟨problem, hproblem, by rw [herror]; rfl⟩

/-! ### Lexemes by their columns -/

/-- The columns of tokens, and the column behind the last of them. -/
def columns (tokens : List Token) (finish : Nat) : List Nat := tokens.map (·.column) ++ [finish]

/-- From the column of a token to the next one, a text has the longest lexeme that can be read at
that place, which is one of the token, and then it has blanks. -/
def Tells (t : Text) (token : Token) (next : Nat) : Prop :=
  ∃ lexeme gap, (t.drop (token.column - 1)).take (next - token.column) = lexeme ++ gap ∧
    Spells token.symbol lexeme ∧ (∀ k ∈ gap, Text.isBlank k = true) ∧
    Longest lexeme (t.drop (token.column - 1))

/-- A token tells its symbol and the blanks behind it, at its column. -/
private theorem tells_append {before lexeme gap rest : Text} {s : Symbol}
    (hspells : Spells s lexeme) (hgap : ∀ k ∈ gap, Text.isBlank k = true)
    (hlongest : Longest lexeme (lexeme ++ (gap ++ rest))) :
    Tells (before ++ (lexeme ++ (gap ++ rest))) ⟨s, before.length + 1⟩
      (before.length + 1 + lexeme.length + gap.length) := by
  refine ⟨lexeme, gap, ?_, hspells, hgap, ?_⟩
  · have hlength : before.length + 1 + lexeme.length + gap.length - (before.length + 1) =
        (lexeme ++ gap).length := by
      rw [List.length_append]
      omega
    dsimp only
    rw [hlength, Nat.add_sub_cancel, List.drop_left, ← List.append_assoc, List.take_left]
  · dsimp only
    rw [Nat.add_sub_cancel, List.drop_left]
    exact hlongest

/-- The tokens tell all of a text up to a column but the blanks. -/
structure Lossless (t : Text) (tokens : List Token) (finish : Nat) : Prop where
  /-- Nothing stands before the first token. -/
  first : (columns tokens finish).head? = some 1
  increasing : (columns tokens finish).Pairwise (· < ·)
  slice : ∀ i token next, tokens[i]? = some token → (columns tokens finish)[i + 1]? = some next →
    Tells t token next

/-- Lexemes one after the other are found by their columns. -/
private theorem Laid.lossless {beyond text t : Text} {column : Nat} {tokens : List Token}
    (h : Laid beyond column tokens text) (before : Text) (ht : t = before ++ (text ++ beyond))
    (hcolumn : column = before.length + 1) :
    (columns tokens (column + text.length)).head? = some column ∧
      (columns tokens (column + text.length)).Pairwise (· < ·) ∧
      ∀ i token next, tokens[i]? = some token →
        (columns tokens (column + text.length))[i + 1]? = some next → Tells t token next := by
  induction h generalizing before with
  | nil column =>
    refine ⟨rfl, List.pairwise_singleton _ _, fun i token next htoken => ?_⟩
    rw [List.getElem?_nil] at htoken
    cases htoken
  | @cons column s lexeme gap rest tokens hspells hne hgap hlongest _ ih =>
    have hfinish : column + (lexeme ++ (gap ++ rest)).length =
        column + lexeme.length + gap.length + rest.length := by
      simp only [List.length_append]
      omega
    obtain ⟨hhead, hpairwise, hslice⟩ := ih (before ++ (lexeme ++ gap))
      (by rw [ht]; simp only [List.append_assoc])
      (by rw [hcolumn]; simp only [List.length_append]; omega)
    have hpos := List.length_pos_iff.mpr hne
    rw [hfinish]
    change (column :: columns tokens _).head? = _ ∧ (column :: columns tokens _).Pairwise _ ∧ _
    refine ⟨rfl, List.pairwise_cons.mpr ⟨fun k hk => ?_, hpairwise⟩,
      fun i token next htoken hnext => ?_⟩
    · -- the next column is the least of those that follow
      obtain ⟨ks, hks⟩ := List.head?_eq_some_iff.mp hhead
      rw [hks] at hk hpairwise
      rcases List.mem_cons.mp hk with rfl | hk
      · omega
      · have := (List.pairwise_cons.mp hpairwise).1 k hk
        omega
    · cases i with
      | zero =>
        obtain rfl : ⟨s, column⟩ = token := Option.some.inj htoken
        have hnext' : (columns tokens (column + lexeme.length + gap.length + rest.length)).head? =
            some next := by
          rw [List.head?_eq_getElem?]
          exact hnext
        obtain rfl := Option.some.inj (hhead.symm.trans hnext')
        subst hcolumn
        rw [ht]
        simp only [List.append_assoc]
        exact tells_append hspells hgap hlongest
      | succ i => exact hslice i token next htoken hnext

end Token

/-- **Nothing is lost in tokens.** Take a text without the blanks at its ends. Up to some column,
the tokens that are read tell all of it but the blanks. Either this is the end of the text, and they
are its tokens, or no symbol can be read there, and the fault says why. -/
theorem scan_lossless (source : Text) : ∃ tokens finish,
    Token.Lossless source.trim tokens finish ∧
      (finish = source.trim.length + 1 ∧ scan source = .ok ⟨tokens, finish⟩ ∨
        ∃ problem, Token.Unreadable finish (source.trim.drop (finish - 1)) problem ∧
          scan source = .error (.expression problem (some source.trim))) := by
  obtain ⟨tokens, gap, front, rest, ht, hgap, hlaid, hend⟩ := Token.exists_laid 1 source.trim
  -- a trimmed text does not start with blanks
  obtain rfl : gap = [] := by
    cases gap with
    | nil => rfl
    | cons k gap =>
      have hhead : k ∈ source.trim.head? := by
        rw [ht]
        rfl
      have hblank := hgap k List.mem_cons_self
      rw [(Text.trimmed_trim source).head k hhead] at hblank
      cases hblank
  obtain ⟨hfirst, hincreasing, hslice⟩ := hlaid.lossless [] ht rfl
  refine ⟨tokens, 1 + front.length, ⟨hfirst, hincreasing, hslice⟩, ?_⟩
  rcases hend with ⟨rfl, htokens⟩ | ⟨problem, hproblem, herror⟩
  · have hlength : source.trim.length + 1 = 1 + front.length := by
      rw [ht, List.nil_append, List.append_nil, Nat.add_comm]
    refine .inl ⟨hlength.symm, ?_⟩
    rw [scan, htokens, hlength]
  · refine .inr ⟨problem, ?_, ?_⟩
    · rw [ht, Nat.add_sub_cancel_left, List.nil_append, List.drop_left]
      exact hproblem
    · rw [scan, herror]
      rfl

end Pseudocode
