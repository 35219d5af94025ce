import Pseudocode.Proofs.Expr.Cutting
import Pseudocode.Proofs.Expr.Shown
import Pseudocode.Proofs.Text.Literals

/-!
# Lists of strings

A list of strings in double quotes stands for the strings themselves, with blanks between them
(`Eval.concatenation_stringList`). What is in the strings makes no difference, commas and brackets
included, with one exception: **a string that ends with a backslash must be the last one**. Where
the list is cut, a backslash keeps the quote behind it from closing the string
(`piecesFrom_inQuotes`); but when a part is recognised as a string, and when it is scanned, the
string ends at that quote. The part that begins with such a string goes on behind a comma, and so it
is neither a string nor an expression (`Eval.outcome_part_of_broken`).
-/

namespace Pseudocode

/-- A text in double quotes. -/
def Text.inQuotes (s : Text) : Text := '"' :: (s ++ ['"'])

/-- The strings in double quotes, with a comma and a blank between them. -/
def stringList (ss : List Text) : Text := Text.join [',', ' '] (ss.map Text.inQuotes)

private theorem stringList_cons_cons (s s' : Text) (rest : List Text) :
    stringList (s :: s' :: rest) = s.inQuotes ++ ',' :: ' ' :: stringList (s' :: rest) := by
  simp [stringList]

private theorem Text.trimmed_inQuotes (s : Text) : s.inQuotes.Trimmed where
  head c hc := by
    obtain rfl := Option.some.inj hc
    decide
  last c hc := by
    rw [inQuotes, ← List.cons_append, List.getLast?_concat] at hc
    obtain rfl := Option.some.inj hc
    decide

private theorem Text.unquoted_of_all {s : Text} (h : s.all (!isQuote ·) = true) : s.Unquoted := by
  intro c hc
  simpa using List.all_eq_true.mp h c hc

private theorem Text.Unquoted.contains_doubleQuote {s : Text} (hs : s.Unquoted) :
    s.contains '"' = false := by
  refine Bool.eq_false_iff.mpr fun hmem => ?_
  have hquote := hs _ (List.contains_iff_mem.mp hmem)
  cases hquote

/-! ### Where a list of strings is cut -/

section Cutting

variable {s : Text} {ss : List Text}

/-- **A string is passed over as a whole**, but a backslash at its end leaves it open. -/
theorem piecesFrom_inQuotes (hs : s.Unquoted) (t : Text) :
    piecesFrom none none 0 (s.inQuotes ++ t) =
      (piecesFrom (some '"') (if s.getLast? = some '\\' then some '"' else none) 0 t).modifyHead
        (s.inQuotes ++ ·) := by
  split
  · next hlast =>
    have hinert : ∀ k ∈ s, Inert (some '"') 0 k := by
      intro k hk
      refine inert_of_ne (fun hkq => ?_) 0
      have hquote := hs k hk
      rw [hkq] at hquote
      cases hquote
    rw [Text.inQuotes, List.cons_append, List.append_assoc, piecesFrom_cons_of_not rfl]
    have hopen : piecesFrom (some '"') (quoteBehind none '"' none) (depthBehind none '"' none 0)
        (s ++ (['"'] ++ t)) = _ := piecesFrom_append hinert _
    rw [hopen, hlast, List.singleton_append, piecesFrom_cons_of_not rfl]
    simp only [List.modifyHead_modifyHead]
    congr 1
    funext piece
    simp
  · next hlast =>
    exact piecesFrom_string rfl hs.contains_doubleQuote (Option.some_ne_none _).symm hlast t

private theorem splitParts_inQuotes (hs : s.Unquoted) : splitParts s.inQuotes = [s.inQuotes] := by
  have hpieces := piecesFrom_inQuotes hs []
  rw [List.append_nil] at hpieces
  rw [splitParts, hpieces, piecesFrom, List.modifyHead_cons, List.append_nil, List.map_singleton,
    s.trimmed_inQuotes.trim_eq]
  rfl

/-- A string that does not end with a backslash is a part of its own. -/
private theorem splitParts_inQuotes_append (hs : s.Unquoted) (hlast : s.getLast? ≠ some '\\')
    (t : Text) :
    splitParts (s.inQuotes ++ ',' :: t) = s.inQuotes :: splitParts t := by
  have hcomma : piecesFrom (some '"') none 0 (',' :: t) = [] :: piecesFrom none none 0 t := by
    have hsep : separates none 0 ',' = true := rfl
    rw [piecesFrom_cons, if_pos hsep,
      piecesFrom_previous (by decide) (Option.some_ne_none _).symm]
  rw [splitParts, piecesFrom_inQuotes hs, if_neg hlast, hcomma, List.modifyHead_cons,
    List.append_nil, List.map_cons, s.trimmed_inQuotes.trim_eq]
  rfl

private theorem splitParts_blank (t : Text) : splitParts (' ' :: t) = splitParts t := by
  have hblank : ∀ k ∈ [' '], Text.isBlank k = true := by
    simp only [List.mem_singleton, forall_eq]
    decide
  exact splitParts_append_left hblank t

/-- The parts of a list of strings are the strings, if only the last one ends with a backslash. -/
private theorem splitParts_stringList (hss : ∀ s ∈ ss, s.Unquoted)
    (h : ∀ s ∈ ss.dropLast, s.getLast? ≠ some '\\') :
    splitParts (stringList ss) = ss.map Text.inQuotes := by
  induction ss with
  | nil => rfl
  | cons s rest ih =>
    obtain ⟨hs, hrest⟩ := List.forall_mem_cons.mp hss
    cases rest with
    | nil => exact splitParts_inQuotes hs
    | cons s' rest =>
      obtain ⟨hlast, hmore⟩ := List.forall_mem_cons.mp h
      rw [stringList_cons_cons, splitParts_inQuotes_append hs hlast, splitParts_blank,
        ih hrest hmore]
      rfl

/-- A string in quotes, and a comma right behind it. -/
def Broken (p : Text) : Prop := ∃ s x : Text, s.Unquoted ∧ p = s.inQuotes ++ ',' :: x

/-- A string that ends with a backslash takes the comma behind it into its part. -/
private theorem exists_broken_of_escaped (hs : s.Unquoted) (hlast : s.getLast? = some '\\')
    (t : Text) :
    ∃ p more, splitParts (s.inQuotes ++ ',' :: t) = p :: more ∧ Broken p := by
  obtain ⟨piece, pieces, hpieces⟩ := List.exists_cons_of_ne_nil
    (piecesFrom_ne_nil (some ',') (some '"') 0 t)
  have hcomma : piecesFrom (some '"') (some '"') 0 (',' :: t) = (',' :: piece) :: pieces := by
    rw [piecesFrom_cons_of_not rfl]
    exact congrArg (List.modifyHead _) hpieces
  have hfirst : piecesFrom none none 0 (s.inQuotes ++ ',' :: t) =
      (s.inQuotes ++ ',' :: piece) :: pieces := by
    rw [piecesFrom_inQuotes hs, if_pos hlast, hcomma, List.modifyHead_cons]
  -- trimming does not reach the comma
  have htrimmed : Text.Trimmed (s.inQuotes ++ [',']) := by
    refine ⟨s.trimmed_inQuotes.head, fun c hc => ?_⟩
    rw [List.getLast?_concat] at hc
    obtain rfl := Option.some.inj hc
    decide
  obtain ⟨x, hx⟩ := htrimmed.exists_trim_append piece
  rw [List.append_assoc, List.singleton_append, List.append_assoc, List.singleton_append] at hx
  have hparts : splitParts (s.inQuotes ++ ',' :: t) =
      (s.inQuotes ++ ',' :: x) :: (pieces.map Text.trim).filter (!·.isEmpty) := by
    rw [splitParts, hfirst, List.map_cons, hx]
    rfl
  exact ⟨_, _, hparts, s, x, hs, rfl⟩

/-- The first string that ends with a backslash and is not the last one begins a broken part. -/
private theorem exists_broken_of_stringList (hss : ∀ s ∈ ss, s.Unquoted)
    (h : ∃ s ∈ ss.dropLast, s.getLast? = some '\\') :
    ∃ (front : List Text) (p : Text) (more : List Text), (∀ s ∈ front, s.Unquoted) ∧
      splitParts (stringList ss) = front.map Text.inQuotes ++ p :: more ∧ Broken p := by
  induction ss with
  | nil =>
    obtain ⟨s, hs, -⟩ := h
    cases hs
  | cons s rest ih =>
    obtain ⟨hs, hrest⟩ := List.forall_mem_cons.mp hss
    obtain ⟨r, hr, hescaped⟩ := h
    cases rest with
    | nil => cases hr
    | cons s' rest =>
      rw [stringList_cons_cons]
      by_cases hlast : s.getLast? = some '\\'
      · obtain ⟨p, more, hparts, hbroken⟩ := exists_broken_of_escaped hs hlast
          (' ' :: stringList (s' :: rest))
        exact ⟨[], p, more, List.forall_mem_nil _, hparts, hbroken⟩
      · have hmem : r ∈ (s' :: rest).dropLast := by
          rcases List.mem_cons.mp hr with rfl | hr
          · exact absurd hescaped hlast
          · exact hr
        obtain ⟨front, p, more, hfront, hparts, hbroken⟩ := ih hrest ⟨r, hmem, hescaped⟩
        refine ⟨s :: front, p, more, List.forall_mem_cons.mpr ⟨hs, hfront⟩, ?_, hbroken⟩
        rw [splitParts_inQuotes_append hs hlast, splitParts_blank, hparts]
        rfl

end Cutting

/-! ### A comma behind a string -/

namespace Grammar

private theorem Joins.ne_comma {a b e : Expr} {l : Level} {s : Symbol} (h : Joins a b l s e) :
    s ≠ .comma := by
  rintro rfl
  cases h with
  | o hs | or hs | y hs | and hs | mod hs =>
    obtain ⟨name, hname, -⟩ := hs
    cases hname

private theorem not_negates_of_string {t : Token} {ts : List Token} {content : Text}
    (ht : t.symbol = .string content) : ¬ Negates (t :: ts) := by
  intro h
  cases h with
  | tilde hs => cases ht.symm.trans hs
  | word hs _ => rcases hs with ⟨name, hs, -⟩ | ⟨name, hs, -⟩ <;> cases ht.symm.trans hs

/-- **A phrase that begins with a string ends before a comma behind it.** -/
theorem Derives.rest_of_comma {t u : Token} {more : List Token} {content : Text}
    (ht : t.symbol = .string content) (hu : u.symbol = .comma) {p : Phrase} {e : Expr}
    {ts rest : List Token} : Derives p ts e rest → ts = t :: u :: more → rest = u :: more
  | .operand h, hts | .compare _ h, hts | .unsigned h, hts | .base h, hts =>
    h.rest_of_comma ht hu hts
  | .join h hjoins _, hts => by
    -- the comma joins nothing
    obtain ⟨rfl, -⟩ := List.cons.inj (h.rest_of_comma ht hu hts)
    exact absurd hu hjoins.ne_comma
  | .raise h hcaret _, hts => by
    obtain ⟨rfl, -⟩ := List.cons.inj (h.rest_of_comma ht hu hts)
    rcases hcaret with hcaret | hcaret <;> cases hu.symm.trans hcaret
  | .negate h _, hts => by
    rw [hts] at h
    exact absurd h (not_negates_of_string ht)
  | .string _, hts => (List.cons.inj hts).2
  | .minus hs _, hts | .plus hs _, hts | .number hs, hts | .name hs _, hts
  | .element hs _ _ _ _, hts | .callNone hs _ _ _, hts | .call hs _ _ _, hts
  | .parenthesized hs _ _, hts | .verdadero ⟨_, hs, _⟩, hts | .falso ⟨_, hs, _⟩, hts => by
    obtain ⟨rfl, -⟩ := List.cons.inj hts
    cases ht.symm.trans hs

end Grammar

/-- A string with a comma behind it is no expression. -/
private theorem Broken.exists_parse_eq_error {p : Text} (hp : Broken p) (htrimmed : p.Trimmed) :
    ∃ fault, Expr.parse p = .error fault := by
  obtain ⟨s, x, hs, rfl⟩ := hp
  cases hparse : Expr.parse (s.inQuotes ++ ',' :: x) with
  | error fault => exact ⟨fault, rfl⟩
  | ok e =>
    obtain ⟨tokens, htokens, hderives⟩ := Grammar.parse_eq_ok_iff.mp hparse
    rw [htrimmed.trim_eq] at htokens
    obtain ⟨l, ts, hl, hts, rfl⟩ := Token.exists_lexeme_of_tokensFrom (by decide) htokens
    -- the scanner ends the string at its second quote
    have hstring : Token.lexeme 1 '"' (s ++ ['"'] ++ ',' :: x) = .ok _ :=
      Token.lexeme_string rfl 1 hs.contains_doubleQuote
    obtain rfl := Except.ok.inj (hl.symm.trans hstring)
    obtain ⟨l', more, hl', -, rfl⟩ := Token.exists_lexeme_of_tokensFrom (by decide) hts
    obtain rfl := Except.ok.inj (hl'.symm.trans (Token.lexeme_eq_ok_iff.mpr (.mark .comma)))
    cases hderives.rest_of_comma rfl rfl rfl

namespace Eval

variable {scope : Scope} {q : Progress} {s p : Text}

private theorem isQuotedLiteral_inQuotes (hs : s.Unquoted) : isQuotedLiteral s.inQuotes = true := by
  simp only [Text.inQuotes, isQuotedLiteral, List.getLast?_concat, List.dropLast_concat,
    hs.contains_doubleQuote]
  rfl

private theorem isQuotedLiteral_of_broken (hp : Broken p) : isQuotedLiteral p = false := by
  obtain ⟨s, x, -, rfl⟩ := hp
  have hmem : '"' ∈ (s ++ ['"'] ++ ',' :: x).dropLast := by
    rw [List.dropLast_append_of_ne_nil (List.cons_ne_nil _ _)]
    simp
  have hcontains : (s ++ ['"'] ++ ',' :: x).dropLast.contains '"' = true :=
    List.contains_iff_mem.mpr hmem
  rw [Text.inQuotes, List.cons_append, isQuotedLiteral, hcontains, Bool.not_true, Bool.and_false]

/-- **A part that begins with a string and a comma behind it is a fault**, as long as the keys of
the variables are plain. -/
theorem outcome_part_of_broken (hkeys : ∀ key ∈ scope.store.keys, key.all Text.isPlain = true)
    (htrimmed : p.Trimmed) (hp : Broken p) :
    ∃ fault, fault.isExpression = true ∧ (part p).outcome scope q = (.error fault, q) := by
  obtain ⟨fault, hparse⟩ := hp.exists_parse_eq_error htrimmed
  have hquoted := isQuotedLiteral_of_broken hp
  obtain ⟨s, x, -, rfl⟩ := hp
  have hget : scope.store.get? (s.inQuotes ++ ',' :: x) = none := by
    cases hget : scope.store.get? (s.inQuotes ++ ',' :: x) with
    | none => rfl
    | some w =>
      have hplain := isPlain_of_get? hkeys hget '"' List.mem_cons_self
      have hnot : Text.isPlain '"' = false := by decide
      cases hnot.symm.trans hplain
  have hname : (s.inQuotes ++ ',' :: x).isName = false := by
    rfl
  have hexpression : (expression (s.inQuotes ++ ',' :: x)).outcome scope q = (.error fault, q) :=
    outcome_expression_of_error hparse
  refine ⟨fault, Expr.isExpression_of_parse hparse, ?_⟩
  rw [part, if_neg (by simp [hquoted]), outcome_read_bind, hget]
  simp only [hname, Bool.false_and, Bool.false_eq_true, if_false]
  rw [outcome_bind_error hexpression]

private theorem parts_inQuotes_cons (hs : s.Unquoted) (rest : List Text) :
    parts (s.inQuotes :: rest) = (do return s :: (← parts rest)) := by
  have hpart : part s.inQuotes = pure s := by
    have hcontent : (s.inQuotes.drop 1).dropLast = s := List.dropLast_concat
    rw [part, if_pos (isQuotedLiteral_inQuotes hs), hcontent]
  rw [parts, hpart, pure_bind]

private theorem outcome_parts_map_inQuotes {ss : List Text} (hss : ∀ s ∈ ss, s.Unquoted) :
    (parts (ss.map Text.inQuotes)).outcome scope q = (.ok ss, q) := by
  induction ss with
  | nil => rfl
  | cons s rest ih =>
    obtain ⟨hs, hrest⟩ := List.forall_mem_cons.mp hss
    rw [List.map_cons, parts_inQuotes_cons hs, outcome_bind_ok (ih hrest)]
    rfl

/-- Strings in front of a part that is a fault make no difference. -/
private theorem outcome_parts_of_error {front more : List Text} {fault : Fault}
    (hfront : ∀ s ∈ front, s.Unquoted) (h : (part p).outcome scope q = (.error fault, q)) :
    (parts (front.map Text.inQuotes ++ p :: more)).outcome scope q = (.error fault, q) := by
  induction front with
  | nil => exact outcome_bind_error h
  | cons s front ih =>
    obtain ⟨hs, hrest⟩ := List.forall_mem_cons.mp hfront
    rw [List.map_cons, List.cons_append, parts_inQuotes_cons hs]
    exact outcome_bind_error (ih hrest)

/-- **A list of strings without quotes stands for the strings with blanks between them**, and
nothing is reported or drawn, if only the last string ends with a backslash. If another one does,
evaluating the list ends with a fault of an expression, as long as the keys of the variables are
plain. -/
theorem concatenation_stringList {ss : List Text} (hss : ∀ s ∈ ss, s.Unquoted) (scope : Scope)
    (q : Progress) :
    ((∀ s ∈ ss.dropLast, s.getLast? ≠ some '\\') →
      (concatenation (stringList ss)).outcome scope q = (.ok (Text.join [' '] ss), q)) ∧
    ((∃ s ∈ ss.dropLast, s.getLast? = some '\\') →
      (∀ key ∈ scope.store.keys, key.all Text.isPlain = true) →
      ∃ fault, fault.isExpression = true ∧
        (concatenation (stringList ss)).outcome scope q = (.error fault, q)) := by
  constructor
  · intro h
    rw [concatenation, splitParts_stringList hss h,
      outcome_bind_ok (outcome_parts_map_inQuotes hss)]
    rfl
  · intro h hkeys
    obtain ⟨front, p, more, hfront, hparts, hbroken⟩ := exists_broken_of_stringList hss h
    have hmem : p ∈ splitParts (stringList ss) := by simp [hparts]
    obtain ⟨-, htrimmed, -⟩ := splitParts_of_mem hmem
    obtain ⟨fault, hkind, hpart⟩ := outcome_part_of_broken hkeys htrimmed hbroken
    refine ⟨fault, hkind, ?_⟩
    rw [concatenation, hparts]
    exact outcome_bind_error (outcome_parts_of_error hfront hpart)

/-- A comma, a bracket and backslashes in strings, and a backslash at the end of the last one. -/
def fourStrings : List Text := ["a, (b".toList, [], "c\\d".toList, "e\\".toList]

/-- Strings with a comma, an opening bracket and backslashes, one of them empty. -/
theorem concatenation_fourStrings :
    (∀ s ∈ fourStrings, s.Unquoted) ∧
      (concatenation (stringList fourStrings)).outcome ⟨.empty, fun _ => 0, false⟩ ⟨0, #[]⟩ =
        (.ok "a, (b  c\\d e\\".toList, ⟨0, #[]⟩) := by
  have hss : ∀ s ∈ fourStrings, s.Unquoted := by
    simp only [fourStrings, List.forall_mem_cons]
    refine ⟨?_, ?_, ?_, ?_, List.forall_mem_nil _⟩ <;> exact Text.unquoted_of_all (by decide)
  have hlast : ∀ s ∈ fourStrings.dropLast, s.getLast? ≠ some '\\' := by
    simp only [fourStrings, List.dropLast, List.forall_mem_cons]
    exact ⟨by decide, by decide, by decide, List.forall_mem_nil _⟩
  have hjoin : Text.join [' '] fourStrings = "a, (b  c\\d e\\".toList := by decide
  rw [← hjoin]
  exact ⟨hss, (concatenation_stringList hss _ _).1 hlast⟩

/-- **A backslash at the end of a string that is not the last one is a fault**: the comma behind the
string is taken for a symbol of one expression. -/
theorem concatenation_stringList_escaped :
    ((concatenation (stringList ["a\\".toList, "b".toList])).outcome
        ⟨.empty, fun _ => 0, false⟩ ⟨0, #[]⟩).1 =
      .error (.within "\"a\\\", \"b\"".toList (.unexpectedSymbol [','] 5)) := by
  decide +kernel

end Eval

end Pseudocode
