import Pseudocode.Numeral
import Pseudocode.Text.Trim
import Pseudocode.Text.Word
import Pseudocode.Token.Basic

/-!
# The tokens of a text

`lexeme` reads one symbol at the start of a text, with the characters that it takes and the rest;
`tokensFrom` repeats this until the text is used up, skipping white space. Each symbol is as long as
it can be. The characters of a symbol and the rest make up the text again (`lexeme_append`), and a
symbol has at least one of them, which is why reading comes to an end.
-/

namespace Pseudocode

/-- Whether a character opens and closes strings. -/
def isQuote (c : Char) : Bool := c == Text.doubleQuote || c == Text.singleQuote

/-- Whether a character can continue the digits of a numeral. -/
def isNumeralChar (c : Char) : Bool := Text.isDigit c || c == '.'

namespace Token

/-- A symbol at the start of a text: the characters that it takes, and the rest of the text. -/
structure Lexeme where
  symbol : Symbol
  text : Text
  rest : Text

/-- The numeral that starts with the character `c` and goes on with `more`, up to the end of its
exponent, and the rest. -/
def numeralText (c : Char) (more : Text) : Text × Text :=
  let (power, rest) := Decimal.exponentText (more.dropWhile isNumeralChar)
  (c :: more.takeWhile isNumeralChar ++ power, rest)

/-- The symbol that starts with the character `c` at the given column and goes on with `more`. -/
def lexeme (column : Nat) (c : Char) (more : Text) : Except Problem Lexeme :=
  if Text.isLetter c || c == '_' then
    let name := c :: more.takeWhile Text.isWordChar
    .ok ⟨.word name, name, more.dropWhile Text.isWordChar⟩
  else if Text.isDigit c || (c == '.' && more.head?.any Text.isDigit) then
    let (numeral, rest) := numeralText c more
    match Numeral.ofToken? numeral with
    | some n => .ok ⟨.number n, numeral, rest⟩
    | none => .error (.invalidNumeral numeral)
  else if isQuote c then
    let content := more.takeWhile (· != c)
    match more.dropWhile (· != c) with
    | [] => .error .unclosedString
    | closing :: rest => .ok ⟨.string content, c :: content ++ [closing], rest⟩
  else if c == '(' then .ok ⟨.paren true, [c], more⟩
  else if c == ')' then .ok ⟨.paren false, [c], more⟩
  else if c == '[' then .ok ⟨.bracket true, [c], more⟩
  else if c == ']' then .ok ⟨.bracket false, [c], more⟩
  else if c == ',' then .ok ⟨.comma, [c], more⟩
  else match Operator.leading? (c :: more) with
    | some o => .ok ⟨.operator o, o.text, (c :: more).drop o.text.length⟩
    | none => .error (.unexpectedCharacter c column)

/-- A numeral and what is behind it make up the text. -/
theorem numeralText_append (c : Char) (more : Text) :
    (numeralText c more).1 ++ (numeralText c more).2 = c :: more := by
  have h := Decimal.exponentText_append (more.dropWhile isNumeralChar)
  simp only [numeralText, List.cons_append, List.append_assoc, h,
    List.takeWhile_append_dropWhile]

/-- A sign and what is behind it make up the text. -/
theorem operator_text_append {o : Operator} {t : Text} (h : Operator.leading? t = some o) :
    o.text ++ t.drop o.text.length = t := by
  have hp : o.text.isPrefixOf t = true := by simpa using List.find?_some h
  exact List.prefix_iff_eq_append.1 (List.isPrefixOf_iff_prefix.1 hp)

/-- No sign is spelled with nothing. -/
theorem operator_text_ne_nil (o : Operator) : o.text ≠ [] := by
  cases o <;> simp [Operator.text]

/-- A symbol takes at least one character, and nothing is lost. -/
theorem lexeme_append {column : Nat} {c : Char} {more : Text} {l : Lexeme}
    (h : lexeme column c more = .ok l) : l.text ++ l.rest = c :: more ∧ l.text ≠ [] := by
  simp only [lexeme] at h
  split at h
  · obtain rfl := Except.ok.inj h
    simp
  split at h
  · split at h
    · obtain rfl := Except.ok.inj h
      exact ⟨numeralText_append c more, by simp [numeralText]⟩
    · cases h
  split at h
  · split at h
    · cases h
    · next closing rest heq =>
      obtain rfl := Except.ok.inj h
      refine ⟨?_, by simp⟩
      simp only [List.cons_append, List.append_assoc, List.nil_append, ← heq,
        List.takeWhile_append_dropWhile]
  iterate 5
    split at h
    · obtain rfl := Except.ok.inj h
      simp
  split at h
  · next o ho =>
    obtain rfl := Except.ok.inj h
    exact ⟨operator_text_append ho, operator_text_ne_nil o⟩
  · cases h

/-- What remains behind a symbol is never longer than what follows its first character. -/
theorem lexeme_rest_le {column : Nat} {c : Char} {more : Text} {l : Lexeme}
    (h : lexeme column c more = .ok l) : l.rest.length ≤ more.length := by
  obtain ⟨happ, hne⟩ := lexeme_append h
  have hlen := congrArg List.length happ
  have hpos := List.length_pos_iff.2 hne
  simp only [List.length_append, List.length_cons] at hlen
  omega

/-- The tokens of a text whose first character stands at the given column. -/
def tokensFrom (column : Nat) (t : Text) : Except Problem (List Token) :=
  match t with
  | [] => .ok []
  | c :: more =>
    if Text.isBlank c then tokensFrom (column + 1) more
    else match h : lexeme column c more with
      | .error problem => .error problem
      | .ok l =>
        have : l.rest.length ≤ more.length := lexeme_rest_le h
        (tokensFrom (column + l.text.length) l.rest).map (⟨l.symbol, column⟩ :: ·)
termination_by t.length

end Token

/-- The tokens of an expression. Columns count from the first character that is not blank. -/
def scan (source : Text) : Except Fault Scan :=
  let t := source.trim
  match Token.tokensFrom 1 t with
  | .ok tokens => .ok ⟨tokens, t.length + 1⟩
  | .error problem => .error (.within t problem)

/-- The tokens of the trimmed text are those of the text. -/
theorem scan_of_tokensFrom {source : Text} {tokens : List Token}
    (h : Token.tokensFrom 1 source.trim = .ok tokens) :
    scan source = .ok ⟨tokens, source.trim.length + 1⟩ := by
  rw [scan, h]

end Pseudocode
