import Pseudocode.Proofs.Text.Keyword
import Pseudocode.Proofs.Text.Trim
import Pseudocode.Token.Lexer

/-!
# Symbols as they are written

A symbol has a written form, `Symbol.written`: a string stands in double quotes, and any other
symbol is its own text. **Symbols that are written one after the other with single blanks between
them are found again** (`exists_scan_written`), as long as each of them can be written at all
(`Symbol.isWritable`): words are words of the scanner, numbers are natural numbers of at most
`Number.maxDigits` digits, and strings hold no double quote.

The scanner takes in as much as it can for a symbol. A blank ends a word, a numeral and a sign, and
the closing quote ends a string, so a symbol never runs into the one behind it (`lexeme_written`).
-/

namespace Pseudocode

namespace Text

/-- Whether a text is a word of the scanner: a letter or an underscore, and then letters, numerals
and underscores. -/
def isIdentifier : Text → Bool
  | [] => false
  | c :: rest => (isLetter c || c == '_') && rest.all isWordChar

private theorem isWordChar_of_isIdentifier {t : Text} (h : t.isIdentifier = true) :
    ∀ c ∈ t, isWordChar c = true := by
  cases t with
  | nil => nofun
  | cons c rest =>
    simp only [isIdentifier, Bool.and_eq_true, Bool.or_eq_true, List.all_eq_true] at h
    obtain ⟨hc, hrest⟩ := h
    intro k hk
    rcases List.mem_cons.mp hk with rfl | hk
    · rcases hc with hc | hc <;> simp [isWordChar, hc]
    · exact hrest k hk

/-- A text without any blank is as it is when it is trimmed. -/
theorem trimmed_of_forall {t : Text} (h : ∀ c ∈ t, isBlank c = false) : Trimmed t where
  head c hc := h c (List.mem_of_mem_head? hc)
  last c hc := h c (List.mem_of_mem_getLast? hc)

/-- Texts that are neither empty nor have blanks at their ends are no different when they are
joined. -/
theorem trimmed_join (separator : Text) {ts : List Text} (h : ∀ t ∈ ts, t ≠ [] ∧ Trimmed t) :
    Trimmed (join separator ts) ∧ (ts ≠ [] → join separator ts ≠ []) := by
  induction ts with
  | nil => exact ⟨trimmed_of_forall nofun, absurd rfl⟩
  | cons t rest ih =>
    obtain ⟨⟨hne, ht⟩, hrest⟩ := List.forall_mem_cons.mp h
    cases rest with
    | nil => exact ⟨ht, fun _ => hne⟩
    | cons u more =>
      obtain ⟨hjoin, hjoin_ne⟩ := ih hrest
      rw [join_cons_cons]
      refine ⟨⟨fun c hc => ht.head c ?_, fun c hc => hjoin.last c ?_⟩, fun _ => by simp [hne]⟩
      · obtain ⟨k, t, rfl⟩ := List.exists_cons_of_ne_nil hne
        exact hc
      · rw [List.getLast?_append,
          List.getLast?_eq_some_getLast (hjoin_ne (List.cons_ne_nil _ _))] at hc
        rwa [List.getLast?_eq_some_getLast (hjoin_ne (List.cons_ne_nil _ _))]

/-! ### Decimal numerals -/

/-- What holds of the ten digits of ASCII holds of every digit of ASCII. -/
theorem of_isDigit {p : Char → Bool} (hp : ∀ n < 10, p (Char.ofNat ('0'.toNat + n)) = true)
    {c : Char} (h : c.isDigit = true) : p c = true := by
  obtain ⟨hlo, hhi⟩ : 48 ≤ c.toNat ∧ c.toNat ≤ 57 := by
    simp only [Char.isDigit, Bool.and_eq_true, decide_eq_true_eq] at h
    exact ⟨UInt32.le_iff_toNat_le.mp h.1, UInt32.le_iff_toNat_le.mp h.2⟩
  have hc := hp (c.toNat - 48) (by omega)
  rwa [show '0'.toNat + (c.toNat - 48) = c.toNat from Nat.add_sub_of_le hlo, Char.ofNat_toNat] at hc

/-- A natural number is written with digits of ASCII. -/
theorem isDigit_of_mem_ofNat {n : Nat} {c : Char} (h : c ∈ ofNat n) : c.isDigit = true :=
  Nat.isDigit_of_mem_toDigits (by decide) (by decide) h

/-- A natural number is not written with nothing. -/
theorem ofNat_ne_nil (n : Nat) : ofNat n ≠ [] := Nat.toDigits_ne_nil

/-- A row of ASCII digits, at least one. -/
structure IsDigits (t : Text) : Prop where
  nonempty : t ≠ []
  digit : ∀ c ∈ t, c.isDigit = true

/-- What holds of the ASCII digits holds of every character of a row of them. -/
theorem IsDigits.forall_mem {t : Text} (ht : t.IsDigits) {p : Char → Bool}
    (hp : ∀ n < 10, p (Char.ofNat ('0'.toNat + n)) = true) : ∀ c ∈ t, p c = true :=
  fun c hc => of_isDigit hp (ht.digit c hc)

/-- A natural number is written as digits are read. -/
theorem isDigits_ofNat (n : Nat) : (ofNat n).IsDigits :=
  ⟨ofNat_ne_nil n, fun _ => isDigit_of_mem_ofNat⟩

/-- The value of an ASCII digit. -/
private theorem decimalValue?_of_isDigit {c : Char} (h : c.isDigit = true) :
    decimalValue? c = some (c.toNat - '0'.toNat) := by
  have hp := of_isDigit (p := fun c => decimalValue? c == some (c.toNat - '0'.toNat))
    (by decide) h
  exact eq_of_beq hp

end Text

namespace Decimal

private theorem readDigits_eq_ofDigitChars {t : Text} (h : ∀ c ∈ t, c.isDigit = true) :
    readDigits t = Nat.ofDigitChars 10 t 0 := by
  rw [readDigits, Nat.ofDigitChars_eq_foldl]
  generalize (0 : Nat) = init
  induction t generalizing init with
  | nil => rfl
  | cons c t ih =>
    obtain ⟨hc, ht⟩ := List.forall_mem_cons.mp h
    rw [List.foldl_cons, List.foldl_cons, Text.decimalValue?_of_isDigit hc]
    exact ih ht _

/-- **A natural number is read from its own digits.** -/
theorem readDigits_ofNat (n : Nat) : readDigits (Text.ofNat n) = n := by
  rw [readDigits_eq_ofDigitChars fun _ => Text.isDigit_of_mem_ofNat]
  exact Nat.ofDigitChars_ten_toDigits

end Decimal

private theorem Numeral.ofToken?_of_isDigits {t : Text} (ht : t.IsDigits)
    (h : t.length ≤ Number.maxDigits) :
    Numeral.ofToken? t = some (.int (Decimal.readDigits t)) := by
  have hplain : t.any (fun c => c == '.' || c == 'e' || c == 'E') = false := by
    refine List.any_eq_false.mpr fun c hc => ?_
    have hp := ht.forall_mem (p := fun c => !(c == '.' || c == 'e' || c == 'E'))
      (by decide) c hc
    simpa using hp
  have hdecimal : t.all Text.isDecimal = true :=
    List.all_eq_true.mpr (ht.forall_mem (by decide))
  have hempty : t.isEmpty = false := by simpa using ht.nonempty
  rw [Numeral.ofToken?, hplain, hdecimal, hempty, decide_eq_false (Nat.not_lt.mpr h)]
  rfl

/-! ### Written forms -/

namespace Symbol

/-- A symbol as it is written in an expression. A string stands in double quotes. -/
def written : Symbol → Text
  | string content => Text.doubleQuote :: (content ++ [Text.doubleQuote])
  | s => s.text

/-- Whether a symbol can be written so that it is found again. -/
def isWritable : Symbol → Bool
  | word name => name.isIdentifier
  | number (.int (.ofNat n)) => decide ((Text.ofNat n).length ≤ Number.maxDigits)
  | number _ => false
  | string content => !content.contains Text.doubleQuote
  | paren _ | bracket _ | comma | operator _ => true

end Symbol

namespace Token

/-- Nothing follows, or a blank. -/
def Parted (rest : Text) : Prop := ∀ c ∈ rest.head?, c = ' '

/-- At the end of a text nothing follows. -/
theorem parted_nil : Parted [] := nofun

private theorem parted_blank (rest : Text) : Parted (' ' :: rest) := by
  rintro c ⟨⟩
  rfl

/-- A text is read as the symbol at its start and then as the rest. -/
theorem tokensFrom_of_lexeme {column : Nat} {c : Char} {more : Text} {l : Lexeme}
    (hblank : Text.isBlank c = false) (h : lexeme column c more = .ok l) :
    tokensFrom column (c :: more) =
      (tokensFrom (column + l.text.length) l.rest).map (⟨l.symbol, column⟩ :: ·) := by
  rw [tokensFrom, if_neg (by simp [hblank])]
  split
  · next problem herror => rw [h] at herror; cases herror
  · next l' hl =>
    obtain rfl := Except.ok.inj (h.symm.trans hl)
    rfl

/-- A text has no tokens where there is no symbol at its start. -/
theorem tokensFrom_of_error {column : Nat} {c : Char} {more : Text} {problem : Problem}
    (hblank : Text.isBlank c = false) (h : lexeme column c more = .error problem) :
    tokensFrom column (c :: more) = .error problem := by
  rw [tokensFrom, if_neg (by simp [hblank])]
  split
  · next problem' herror => rw [Except.error.inj (herror.symm.trans h)]
  · next l hok => cases h.symm.trans hok

/-- Where a text has tokens, there is a symbol at its start and the rest has tokens. -/
theorem exists_lexeme_of_tokensFrom {column : Nat} {c : Char} {more : Text} {tokens : List Token}
    (hblank : Text.isBlank c = false) (h : tokensFrom column (c :: more) = .ok tokens) :
    ∃ l ts, lexeme column c more = .ok l ∧
      tokensFrom (column + l.text.length) l.rest = .ok ts ∧ tokens = ⟨l.symbol, column⟩ :: ts := by
  cases hl : lexeme column c more with
  | error problem =>
    rw [tokensFrom_of_error hblank hl] at h
    cases h
  | ok l =>
    rw [tokensFrom_of_lexeme hblank hl] at h
    cases hts : tokensFrom (column + l.text.length) l.rest with
    | error problem =>
      rw [hts] at h
      cases h
    | ok ts =>
      rw [hts] at h
      exact ⟨l, ts, rfl, hts, (Except.ok.inj h).symm⟩

/-- A string is read up to its closing quote, whatever stands behind it. -/
theorem lexeme_string {q : Char} (hq : isQuote q = true) {content rest : Text} (column : Nat)
    (h : content.contains q = false) :
    lexeme column q (content ++ [q] ++ rest) =
      .ok ⟨.string content, q :: (content ++ [q]), rest⟩ := by
  have hcontent : ∀ c ∈ content, (c != q) = true := by
    intro c hc
    refine bne_iff_ne.mpr fun hcq => ?_
    rw [List.contains_iff_mem.mpr (hcq ▸ hc)] at h
    cases h
  have htake : (content ++ [q] ++ rest).takeWhile (· != q) = content := by
    rw [List.append_assoc, List.takeWhile_append_of_pos hcontent]
    simp
  have hdrop : (content ++ [q] ++ rest).dropWhile (· != q) = q :: rest := by
    rw [List.append_assoc, List.dropWhile_append_of_pos hcontent]
    simp
  have hother : (Text.isLetter q || q == '_') = false ∧ Text.isDigit q = false ∧
      (q == '.') = false := by
    rcases (Bool.or_eq_true _ _).mp hq with hq | hq <;> rw [beq_iff_eq.mp hq] <;> decide
  obtain ⟨hletter, hdigit, hpoint⟩ := hother
  simp only [lexeme]
  rw [if_neg (by simp [hletter]), if_neg (by simp [hdigit, hpoint]), if_pos hq, htake, hdrop]
  rfl

section Lexemes

variable {rest : Text} (hrest : Parted rest) (column : Nat)

include hrest

/-- A run of characters of a class without the blank ends where the text is parted. -/
private theorem takeWhile_append {p : Char → Bool} (hp : p ' ' = false) {t : Text}
    (ht : ∀ c ∈ t, p c = true) : (t ++ rest).takeWhile p = t ∧ (t ++ rest).dropWhile p = rest := by
  rw [List.takeWhile_append_of_pos ht, List.dropWhile_append_of_pos ht]
  cases rest with
  | nil => exact ⟨List.append_nil t, rfl⟩
  | cons c rest =>
    obtain rfl := hrest c rfl
    rw [List.takeWhile_cons_of_neg (by simp [hp]), List.dropWhile_cons_of_neg (by simp [hp])]
    exact ⟨List.append_nil t, rfl⟩

private theorem lexeme_word {c : Char} {more : Text} (h : Text.isIdentifier (c :: more) = true) :
    lexeme column c (more ++ rest) = .ok ⟨.word (c :: more), c :: more, rest⟩ := by
  simp only [Text.isIdentifier, Bool.and_eq_true, List.all_eq_true] at h
  obtain ⟨hword, hafter⟩ := takeWhile_append hrest (by decide) h.2
  simp only [lexeme]
  rw [if_pos h.1, hword, hafter]

private theorem exponentText_parted : Decimal.exponentText rest = ([], rest) := by
  cases rest with
  | nil => rfl
  | cons c rest =>
    obtain rfl := hrest c rfl
    simp [Decimal.exponentText]

/-- Digits, up to as many as are converted at all, are one symbol. -/
theorem lexeme_digits {c : Char} {more : Text} (ht : Text.IsDigits (c :: more))
    (h : (c :: more).length ≤ Number.maxDigits) :
    lexeme column c (more ++ rest) =
      .ok ⟨.number (.int (Decimal.readDigits (c :: more))), c :: more, rest⟩ := by
  -- neither a word nor a string starts with a digit
  have hletter : (Text.isLetter c || c == '_') = false := by
    have hp := ht.forall_mem (p := fun c => !(Text.isLetter c || c == '_'))
      (by decide) c List.mem_cons_self
    simpa using hp
  have hstart : (Text.isDigit c || (c == '.' && (more ++ rest).head?.any Text.isDigit)) = true := by
    rw [ht.forall_mem (p := Text.isDigit) (by decide) c List.mem_cons_self]
    rfl
  have hmore : ∀ k ∈ more, isNumeralChar k = true := fun k hk =>
    ht.forall_mem (by decide) k (List.mem_cons_of_mem _ hk)
  obtain ⟨hrun, hafter⟩ := takeWhile_append hrest (p := isNumeralChar) (by decide) hmore
  have htext : numeralText c (more ++ rest) = (c :: more, rest) := by
    simp only [numeralText]
    rw [hrun, hafter, exponentText_parted hrest, List.append_nil]
  simp only [lexeme]
  rw [if_neg (by simp [hletter]), if_pos hstart, htext, Numeral.ofToken?_of_isDigits ht h]

private theorem lexeme_numeral {n : Nat} (h : (Text.ofNat n).length ≤ Number.maxDigits) {c : Char}
    {more : Text} (hn : Text.ofNat n = c :: more) :
    lexeme column c (more ++ rest) = .ok ⟨.number (.int n), Text.ofNat n, rest⟩ := by
  have hdigits := Text.isDigits_ofNat n
  have hread := Decimal.readDigits_ofNat n
  rw [hn] at h hdigits hread ⊢
  rw [lexeme_digits hrest column hdigits h, hread]

/-- A sign that the text is parted behind is not the start of a longer one. -/
private theorem lexeme_operator {o : Operator} {c : Char} {more : Text} (ho : o.text = c :: more) :
    lexeme column c (more ++ rest) = .ok ⟨.operator o, o.text, rest⟩ := by
  -- longer signs are tried first, and the blank is part of none
  cases rest with
  | nil => cases o <;> obtain ⟨rfl, rfl⟩ := List.cons.inj ho <;> rfl
  | cons k rest =>
    obtain rfl := hrest k rfl
    cases o <;> obtain ⟨rfl, rfl⟩ := List.cons.inj ho <;> rfl

/-- **A written symbol is read as itself**, up to where the text is parted. -/
theorem lexeme_written {s : Symbol} (hs : s.isWritable = true) :
    ∃ c more, s.written = c :: more ∧
      lexeme column c (more ++ rest) = .ok ⟨s, s.written, rest⟩ := by
  match s, hs with
  | .word [], hs => cases hs
  | .word (c :: more), hs => exact ⟨c, more, rfl, lexeme_word hrest column hs⟩
  | .number (.int (.ofNat n)), hs =>
    obtain ⟨c, more, hn⟩ := List.exists_cons_of_ne_nil (Text.ofNat_ne_nil n)
    exact ⟨c, more, hn, lexeme_numeral hrest column (of_decide_eq_true hs) hn⟩
  | .number (.int (.negSucc n)), hs => cases hs
  | .number (.real x), hs => cases hs
  | .string content, hs =>
    exact ⟨_, _, rfl, lexeme_string (by decide) column (Bool.not_eq_true' _ |>.mp hs)⟩
  | .paren true, _ | .paren false, _ | .bracket true, _ | .bracket false, _ | .comma, _ =>
    exact ⟨_, _, rfl, rfl⟩
  | .operator o, _ =>
    obtain ⟨c, more, ho⟩ := List.exists_cons_of_ne_nil (operator_text_ne_nil o)
    exact ⟨c, more, ho, lexeme_operator hrest column ho⟩

end Lexemes

/-- A written symbol is neither empty nor has blanks at its ends. -/
private theorem trimmed_written {s : Symbol} (hs : s.isWritable = true) :
    s.written ≠ [] ∧ s.written.Trimmed := by
  match s, hs with
  | .word name, hs =>
    refine ⟨fun hnil => ?_, Text.trimmed_of_forall fun c hc =>
      Text.isBlank_eq_false_of_isWordChar (Text.isWordChar_of_isIdentifier hs c hc)⟩
    obtain rfl : name = [] := hnil
    cases hs
  | .number (.int (.ofNat n)), _ =>
    refine ⟨Text.ofNat_ne_nil n, Text.trimmed_of_forall fun c hc => ?_⟩
    have hp := Text.of_isDigit (p := fun c => !Text.isBlank c) (by decide)
      (Text.isDigit_of_mem_ofNat hc)
    exact Bool.not_eq_true' _ |>.mp hp
  | .number (.int (.negSucc n)), hs => cases hs
  | .number (.real x), hs => cases hs
  | .string content, _ =>
    refine ⟨List.cons_ne_nil _ _, ?_, ?_⟩
    · rintro c ⟨⟩
      decide
    · intro c hc
      rw [Symbol.written, ← List.cons_append, List.getLast?_concat] at hc
      obtain rfl := Option.some.inj hc
      decide
  | .paren true, _ | .paren false, _ | .bracket true, _ | .bracket false, _ | .comma, _ => decide
  | .operator o, _ => cases o <;> decide

/-- A text with a symbol at its start is read as the symbol and then as the rest. -/
private theorem tokensFrom_written {s : Symbol} (hs : s.isWritable = true) {rest : Text}
    (hrest : Parted rest) (column : Nat) :
    tokensFrom column (s.written ++ rest) =
      (tokensFrom (column + s.written.length) rest).map (⟨s, column⟩ :: ·) := by
  obtain ⟨c, more, hwritten, hlex⟩ := lexeme_written hrest column hs
  have hblank : Text.isBlank c = false :=
    (trimmed_written hs).2.head c (by rw [hwritten]; rfl)
  have htext : s.written ++ rest = c :: (more ++ rest) := congrArg (· ++ rest) hwritten
  rw [htext, tokensFrom_of_lexeme hblank hlex]

/-- The symbols of a text in which writable symbols stand with single blanks between them. -/
private theorem exists_tokensFrom_join {ss : List Symbol} (hss : ∀ s ∈ ss, s.isWritable = true)
    (column : Nat) :
    ∃ tokens, tokensFrom column (Text.join [' '] (ss.map Symbol.written)) = .ok tokens ∧
      tokens.map (·.symbol) = ss := by
  induction ss generalizing column with
  | nil => exact ⟨[], by rw [List.map_nil, Text.join_nil, tokensFrom], rfl⟩
  | cons s rest ih =>
    obtain ⟨hs, hrest⟩ := List.forall_mem_cons.mp hss
    cases rest with
    | nil =>
      refine ⟨[⟨s, column⟩], ?_, rfl⟩
      have hread := tokensFrom_written hs parted_nil column
      rw [List.append_nil, tokensFrom] at hread
      exact hread
    | cons s' more =>
      obtain ⟨tokens, htokens, hsymbols⟩ := ih hrest (column + s.written.length + 1)
      refine ⟨⟨s, column⟩ :: tokens, ?_, by rw [List.map_cons, hsymbols]⟩
      rw [List.map_cons, List.map_cons, Text.join_cons_cons, List.append_assoc,
        ← List.map_cons (f := Symbol.written), List.cons_append, List.nil_append,
        tokensFrom_written hs (parted_blank _), tokensFrom, if_pos (by decide), htokens]
      rfl

end Token

/-- **Written symbols are found again** by the scanner, if single blanks stand between them. -/
theorem exists_scan_written {ss : List Symbol} (hss : ∀ s ∈ ss, s.isWritable = true) :
    ∃ scanned, scan (Text.join [' '] (ss.map Symbol.written)) = .ok scanned ∧
      scanned.tokens.map (·.symbol) = ss := by
  have htrimmed : (Text.join [' '] (ss.map Symbol.written)).Trimmed := by
    refine (Text.trimmed_join [' '] fun t ht => ?_).1
    obtain ⟨s, hs, rfl⟩ := List.mem_map.mp ht
    exact Token.trimmed_written (hss s hs)
  obtain ⟨tokens, htokens, hsymbols⟩ := Token.exists_tokensFrom_join hss 1
  refine ⟨⟨tokens, (Text.join [' '] (ss.map Symbol.written)).length + 1⟩, ?_, hsymbols⟩
  simp only [scan]
  rw [htrimmed.trim_eq, htokens]

end Pseudocode
