import Mathlib.Data.List.Chain
import Mathlib.Data.List.Forall2
import Pseudocode.Proofs.Expr.Parts
import Pseudocode.Proofs.Token.Lexed

/-!
# Cutting a list before or after it is scanned

A list of expressions can be cut in two ways. Its text is cut at the commas, where quotes and
brackets are followed character by character; or its symbols are cut at the commas among them,
where strings are symbols already. **Both give the same groups of symbols** (`scans_splitParts`), as
long as no quote stands directly behind a backslash: there a quote is passed over when the text is
cut, but not by the scanner.

The argument goes from symbol to symbol. Cutting the text passes over the characters of a symbol as
a whole (`piecesFrom_lexed`): from where no string is open it comes to where none is open, with as
many brackets open as when the symbols are counted. And a piece that breaks off behind a symbol is
read as the same symbol (`Token.Lexed.shorten`).
-/

namespace Pseudocode

/-! ### Groups of symbols -/

namespace Symbol

/-- The number of brackets that are open behind a symbol. A closing one that closes nothing does not
count. -/
def depthPast (depth : Nat) : Symbol → Nat
  | paren true | bracket true => depth + 1
  | paren false | bracket false => depth - 1
  | _ => depth

/-- The groups of symbols between the commas that stand outside brackets. -/
def groupsFrom (depth : Nat) : List Symbol → List (List Symbol)
  | [] => [[]]
  | s :: rest =>
    if s = comma ∧ depth = 0 then [] :: groupsFrom 0 rest
    else (groupsFrom (s.depthPast depth) rest).modifyHead (s :: ·)

/-- The groups of symbols that are not empty. -/
def groups (ss : List Symbol) : List (List Symbol) := (groupsFrom 0 ss).filter (!·.isEmpty)

end Symbol

/-- No quote stands directly behind a backslash. -/
def Text.Unescaped (t : Text) : Prop := t.IsChain fun a b => a = '\\' → isQuote b = false

instance (t : Text) : Decidable t.Unescaped :=
  inferInstanceAs (Decidable (t.IsChain fun a b => a = '\\' → isQuote b = false))

/-! ### Passing over the characters of a symbol -/

section Pieces

variable {previous quote : Option Char} {depth : Nat} {c : Char} {t u : Text}

private theorem keep_eq_modifyHead {pieces : List Text} (h : pieces ≠ []) (c : Char) :
    keep c pieces = pieces.modifyHead (c :: ·) := by
  obtain ⟨piece, more, rfl⟩ := List.exists_cons_of_ne_nil h
  rfl

/-- A character that separates nothing belongs to the first piece. -/
theorem piecesFrom_cons_of_not (h : separates quote depth c = false) (t : Text) :
    piecesFrom previous quote depth (c :: t) =
      (piecesFrom (some c) (quoteBehind previous c quote)
        (depthBehind previous c quote depth) t).modifyHead (c :: ·) := by
  rw [piecesFrom_cons, if_neg (by simp [h]), keep_eq_modifyHead (piecesFrom_ne_nil _ _ _ _)]

/-- A character that opens, closes and separates nothing in the given state. -/
def Inert (quote : Option Char) (depth : Nat) (c : Char) : Prop :=
  separates quote depth c = false ∧ ∀ previous, quoteBehind previous c quote = quote ∧
    depthBehind previous c quote depth = depth

/-- **Characters that do nothing are passed over together.** -/
theorem piecesFrom_append (h : ∀ k ∈ u, Inert quote depth k) (t : Text) :
    piecesFrom previous quote depth (u ++ t) =
      (piecesFrom (u.getLast?.or previous) quote depth t).modifyHead (u ++ ·) := by
  induction u generalizing previous with
  | nil =>
    simp only [List.nil_append, List.getLast?_nil, Option.none_or]
    cases piecesFrom previous quote depth t <;> rfl
  | cons c u ih =>
    obtain ⟨⟨hsep, hbehind⟩, hu⟩ := List.forall_mem_cons.mp h
    obtain ⟨hquote, hdepth⟩ := hbehind previous
    rw [List.cons_append, piecesFrom_cons_of_not hsep, hquote, hdepth, ih hu,
      List.modifyHead_modifyHead, List.getLast?_cons]
    cases u.getLast? <;> rfl

private theorem inert_of_isSolid (h : Token.isSolid c = true) (quote : Option Char) (depth : Nat) :
    Inert quote depth c := by
  simp only [Token.isSolid, Token.isActive, List.contains_cons, Bool.and_eq_true,
    Bool.not_eq_true', Bool.or_eq_false_iff] at h
  obtain ⟨-, hquote, hopen, hclose, hopen', hclose', hcomma, -⟩ := h
  refine ⟨by simp [separates, hcomma], fun previous => ?_⟩
  simp [quoteBehind, depthBehind, hquote, hopen, hclose, hopen', hclose']

/-- In a string, nothing but its own quote does anything. -/
theorem inert_of_ne {q : Char} (h : c ≠ q) (depth : Nat) : Inert (some q) depth c := by
  refine ⟨by simp [separates], fun previous => ?_⟩
  simp [quoteBehind, depthBehind, quoteAfter, h]

/-- A string is passed over as a whole, unless a backslash stands before one of its quotes. -/
theorem piecesFrom_string {content : Text} (hq : isQuote c = true)
    (hcontent : content.contains c = false) (hprevious : previous ≠ some '\\')
    (hlast : content.getLast? ≠ some '\\') (t : Text) :
    piecesFrom previous none depth (c :: (content ++ [c] ++ t)) =
      (piecesFrom (some c) none depth t).modifyHead (c :: (content ++ [c]) ++ ·) := by
  have hsep (quote : Option Char) : separates quote depth c = false := by
    have hcomma : (c == ',') = false := by
      rcases (Bool.or_eq_true _ _).mp hq with h | h <;> rw [beq_iff_eq.mp h] <;> decide
    simp [separates, hcomma]
  have hopens (before : Option Char) (h : before ≠ some '\\') (quote : Option Char) :
      quoteBehind before c quote = quoteAfter c quote ∧
        depthBehind before c quote depth = depth := by
    simp [quoteBehind, depthBehind, hq, h]
  have hinert : ∀ k ∈ content, Inert (some c) depth k := fun k hk =>
    inert_of_ne (fun hkc => by simp [hkc ▸ hk] at hcontent) depth
  obtain ⟨hquote, hdepth⟩ := hopens previous hprevious none
  rw [piecesFrom_cons_of_not (hsep none), hquote, hdepth, List.append_assoc, quoteAfter,
    piecesFrom_append hinert, List.singleton_append]
  -- the closing quote, behind the content or right behind the opening quote
  have hbefore : content.getLast?.or (some c) ≠ some '\\' := by
    cases hlast' : content.getLast? with
    | none =>
      rintro ⟨⟩
      revert hq
      decide
    | some k => rwa [hlast'] at hlast
  obtain ⟨hquote', hdepth'⟩ := hopens _ hbefore (some c)
  rw [piecesFrom_cons_of_not (hsep (some c)), hquote', hdepth', quoteAfter, if_pos rfl]
  simp only [List.modifyHead_modifyHead]
  congr 1
  funext piece
  simp

/-- The brackets are passed over one by one. -/
private theorem piecesFrom_mark {s : Symbol} (h : Token.IsMark c s)
    (hsep : ¬ (s = .comma ∧ depth = 0)) (t : Text) :
    piecesFrom previous none depth (c :: t) =
      (piecesFrom (some c) none (s.depthPast depth) t).modifyHead (c :: ·) := by
  have hno : separates none depth c = false := by
    cases h with
    | comma => simpa [separates] using hsep
    | _ => rfl
  rw [piecesFrom_cons_of_not hno]
  cases h <;> rfl

/-- **Cutting the text passes over the characters of a symbol as a whole.** -/
theorem piecesFrom_lexed {more : Text} {l : Token.Lexeme} (h : Token.Lexed c more l)
    (hprevious : previous = some '\\' → isQuote c = false) (ht : Text.Unescaped (c :: more))
    (hsep : ¬ (l.symbol = .comma ∧ depth = 0)) :
    piecesFrom previous none depth (c :: more) =
      (piecesFrom l.text.getLast? none (l.symbol.depthPast depth) l.rest).modifyHead
        (l.text ++ ·) := by
  obtain ⟨htext, hmore⟩ := h.append
  have happend : c :: more = l.text ++ l.rest := by rw [htext, hmore]; rfl
  have hlast : l.text.getLast?.or previous = l.text.getLast? := by
    rw [htext, List.getLast?_cons]
    rfl
  -- most symbols are made of characters that do nothing
  have hsolid (hall : ∀ k ∈ l.text, Token.isSolid k = true)
      (hdepth : l.symbol.depthPast depth = depth) :
      piecesFrom previous none depth (c :: more) =
        (piecesFrom l.text.getLast? none (l.symbol.depthPast depth) l.rest).modifyHead
          (l.text ++ ·) := by
    rw [happend, piecesFrom_append fun k hk => inert_of_isSolid (hall k hk) none depth, hlast,
      hdepth]
  cases h with
  | word hletter => exact hsolid (Token.isSolid_word hletter) rfl
  | number _ hdigit _ => exact hsolid (Token.isSolid_numeralText hdigit) rfl
  | operator _ => exact hsolid (Token.isSolid_operator_text _) rfl
  | mark hmark => exact piecesFrom_mark hmark hsep more
  | @string content rest hquote hcontent hstring =>
    subst hstring
    have hfirst : previous ≠ some '\\' := fun hp => by simp [hprevious hp] at hquote
    have hescape : content.getLast? ≠ some '\\' := by
      intro hk
      have hchain : Text.Unescaped (content ++ (c :: rest)) := by
        rw [Text.Unescaped]
        simpa using ht.tail
      have hnot := (List.isChain_append.mp hchain).2.2 _ hk c rfl rfl
      rw [hquote] at hnot
      cases hnot
    have hend : (c :: (content ++ [c])).getLast? = some c := by
      rw [← List.cons_append, List.getLast?_concat]
    rw [hend]
    exact piecesFrom_string hquote hcontent hfirst hescape rest

/-- The first piece is a front part of the text. -/
theorem prefix_of_piecesFrom {piece : Text} {more : List Text}
    (h : piecesFrom previous quote depth t = piece :: more) : piece <+: t := by
  induction t generalizing previous quote depth piece with
  | nil =>
    obtain ⟨rfl, -⟩ := List.cons.inj h
    exact List.nil_prefix
  | cons c t ih =>
    rw [piecesFrom_cons] at h
    split at h
    · obtain ⟨rfl, -⟩ := List.cons.inj h
      exact List.nil_prefix
    · rw [keep_eq_modifyHead (piecesFrom_ne_nil _ _ _ _)] at h
      obtain ⟨first, rest, hpieces⟩ := List.exists_cons_of_ne_nil
        (piecesFrom_ne_nil (some c) (quoteBehind previous c quote)
          (depthBehind previous c quote depth) t)
      rw [hpieces] at h
      obtain ⟨rfl, rfl⟩ := List.cons.inj h
      exact List.cons_prefix_cons.mpr ⟨rfl, ih hpieces⟩

/-! ### The pieces and the groups -/

/-- Heads that are changed together keep what relates the members of two lists. -/
private theorem forall₂_modifyHead {α β : Type} {R : α → β → Prop} {as : List α} {bs : List β}
    (h : List.Forall₂ R as bs) {f : α → α} {g : β → β}
    (hfg : ∀ a ∈ as.head?, ∀ b, R a b → R (f a) (g b)) :
    List.Forall₂ R (as.modifyHead f) (bs.modifyHead g) := by
  cases h with
  | nil => exact .nil
  | cons hhead htail => exact .cons (hfg _ rfl _ hhead) htail

private theorem inert_of_isBlank (h : Text.isBlank c = true) (quote : Option Char) (depth : Nat) :
    Inert quote depth c := by
  have hcomma : c ≠ ',' := ne_of_isBlank h (by decide)
  exact ⟨by simp [separates, hcomma], fun previous => behind_of_isBlank h previous quote depth⟩

/-- **The pieces of a text have the symbols of the groups.** -/
theorem forall₂_reads_piecesFrom {ss : List Symbol} (h : Token.Reads t ss) (ht : t.Unescaped)
    (hprevious : previous = some '\\' → ∀ c ∈ t.head?, isQuote c = false) (depth : Nat) :
    List.Forall₂ Token.Reads (piecesFrom previous none depth t) (Symbol.groupsFrom depth ss) := by
  induction h generalizing previous depth with
  | nil => exact .cons .nil .nil
  | @blank c t ss hblank hrest ih =>
    have hc : some c ≠ some '\\' := fun hc =>
      ne_of_isBlank hblank (d := '\\') (by decide) (Option.some.inj hc)
    obtain ⟨hsep, hbehind⟩ := inert_of_isBlank hblank none depth
    obtain ⟨hquote, hdepth⟩ := hbehind previous
    have hgroups : (Symbol.groupsFrom depth ss).modifyHead id = Symbol.groupsFrom depth ss := by
      rw [List.modifyHead_id, id]
    rw [piecesFrom_cons_of_not hsep, hquote, hdepth, ← hgroups]
    refine forall₂_modifyHead (ih ht.tail (fun hp => absurd hp hc) depth) ?_
    exact fun _ _ _ hpiece => .blank hblank hpiece
  | @symbol c more l ss hblank hlexed hrest ih =>
    obtain ⟨htext, hmore⟩ := hlexed.append
    have happend : c :: more = l.text ++ l.rest := by
      rw [htext, hmore]
      rfl
    obtain ⟨-, hunescaped, hjoint⟩ := List.isChain_append.mp (happend ▸ ht)
    rw [Symbol.groupsFrom]
    split
    · next hsep =>
      obtain ⟨hcomma, rfl⟩ := hsep
      obtain ⟨rfl, hrest⟩ := hlexed.of_comma hcomma
      rw [piecesFrom_cons, if_pos (by rfl), ← hrest]
      refine .cons .nil (ih hunescaped (fun hp => absurd hp (by decide)) 0)
    · next hsep =>
      rw [piecesFrom_lexed hlexed (fun hp => hprevious hp c rfl) ht hsep]
      refine forall₂_modifyHead (ih hunescaped ?_ _) fun piece hpiece group hreads => ?_
      · exact fun hlast c hc => hjoint _ hlast c hc rfl
      · obtain ⟨pieces, hpieces⟩ := List.head?_eq_some_iff.mp hpiece
        have hshort := hlexed.shorten (prefix_of_piecesFrom hpieces)
        rw [htext, List.cons_append]
        exact Token.Reads.symbol (l := ⟨l.symbol, l.text, piece⟩) hblank hshort hreads

/-! ### Blanks at the ends of a list -/

/-- Behind a text, blanks become part of its last piece. -/
private theorem forall₂_piecesFrom_append {v : Text} (hv : ∀ k ∈ v, Text.isBlank k = true)
    (t : Text) (previous quote : Option Char) (depth : Nat) :
    List.Forall₂ (fun piece long => ∃ w, long = piece ++ w ∧ ∀ k ∈ w, Text.isBlank k = true)
      (piecesFrom previous quote depth t) (piecesFrom previous quote depth (t ++ v)) := by
  induction t generalizing previous quote depth with
  | nil =>
    have hinert : ∀ k ∈ v, Inert quote depth k := fun k hk => inert_of_isBlank (hv k hk) quote depth
    rw [List.nil_append, ← List.append_nil v, piecesFrom_append hinert]
    exact .cons ⟨v, List.append_nil v, hv⟩ .nil
  | cons c t ih =>
    rw [List.cons_append]
    by_cases hsep : separates quote depth c = true
    · rw [piecesFrom_cons, piecesFrom_cons, if_pos hsep, if_pos hsep]
      exact .cons ⟨[], rfl, List.forall_mem_nil _⟩ (ih _ _ _)
    · rw [Bool.not_eq_true] at hsep
      rw [piecesFrom_cons_of_not hsep, piecesFrom_cons_of_not hsep]
      refine forall₂_modifyHead (ih _ _ _) ?_
      rintro piece - long ⟨w, rfl, hw⟩
      exact ⟨w, rfl, hw⟩

private theorem splitParts_append_right {v : Text} (hv : ∀ k ∈ v, Text.isBlank k = true)
    (t : Text) :
    splitParts (t ++ v) = splitParts t := by
  have hpieces := forall₂_piecesFrom_append hv t none none 0
  have htrim : (piecesFrom none none 0 t).map Text.trim =
      (piecesFrom none none 0 (t ++ v)).map Text.trim := by
    rw [← List.forall₂_eq_eq_eq, List.forall₂_map_left_iff, List.forall₂_map_right_iff]
    refine hpieces.imp ?_
    rintro piece _ ⟨w, rfl, hw⟩
    exact (Text.trim_append_right hw piece).symm
  rw [splitParts, splitParts, htrim]

/-- Blanks in front of a list change none of its parts. -/
theorem splitParts_append_left (hu : ∀ k ∈ u, Text.isBlank k = true) (t : Text) :
    splitParts (u ++ t) = splitParts t := by
  have hprevious : u.getLast?.or none ≠ some '\\' := fun hlast => by
    rw [Option.or_none] at hlast
    exact ne_of_isBlank (hu _ (List.mem_of_getLast? hlast)) (d := '\\') (by decide) rfl
  have hinert : ∀ k ∈ u, Inert none 0 k := fun k hk => inert_of_isBlank (hu k hk) none 0
  rw [splitParts, splitParts, piecesFrom_append hinert, piecesFrom_previous hprevious
    (Option.some_ne_none _).symm]
  obtain ⟨piece, more, hpieces⟩ := List.exists_cons_of_ne_nil (piecesFrom_ne_nil none none 0 t)
  rw [hpieces, List.modifyHead_cons, List.map_cons, List.map_cons, Text.trim_append_left hu]

private theorem splitParts_trim (t : Text) : splitParts t.trim = splitParts t := by
  obtain ⟨v, hv, hblank⟩ := Text.exists_eq_trimEnd_append t.trimStart
  have hend : splitParts t.trim = splitParts t.trimStart := by
    conv_rhs => rw [hv, splitParts_append_right hblank]
    rfl
  have hstart : t.takeWhile Text.isBlank ++ t.trimStart = t := List.takeWhile_append_dropWhile
  rw [hend, ← splitParts_append_left (fun k hk => List.mem_takeWhile_imp hk) t.trimStart, hstart]

end Pieces

/-! ### The parts and the groups -/

private theorem Text.Unescaped.trim {t : Text} (h : t.Unescaped) : t.trim.Unescaped := by
  have hstart : t.trimStart <:+ t := List.dropWhile_suffix _
  have htrim : t.trim <+: t.trimStart := trimEnd_prefix _
  exact h.infix (htrim.isInfix.trans hstart.isInfix)

/-- The text is scanned without a problem, and these are its symbols. -/
def Scans (t : Text) (ss : List Symbol) : Prop :=
  (scan t).map (·.tokens.map (·.symbol)) = .ok ss

instance (t : Text) (ss : List Symbol) : Decidable (Scans t ss) :=
  inferInstanceAs (Decidable ((scan t).map (·.tokens.map (·.symbol)) = .ok ss))

private theorem scans_iff {t : Text} {ss : List Symbol} : Scans t ss ↔ Token.Reads t.trim ss := by
  constructor
  · intro h
    simp only [Scans, scan] at h
    split at h
    · next tokens htokens =>
      obtain rfl := Except.ok.inj h
      exact Token.reads_of_tokensFrom htokens
    · cases h
  · intro h
    obtain ⟨tokens, htokens, rfl⟩ := h.exists_tokensFrom 1
    simp only [Scans, scan, htokens]
    rfl

/-- A trimmed piece is empty if it has no symbols. -/
private theorem reads_isEmpty_iff {t : Text} {ss : List Symbol} (h : Token.Reads t.trim ss) :
    t.trim.isEmpty = ss.isEmpty := by
  rw [Bool.eq_iff_iff, List.isEmpty_iff, List.isEmpty_iff, h.eq_nil_iff]
  refine ⟨fun hnil => hnil ▸ List.forall_mem_nil _, fun hall => ?_⟩
  have hdrop : t.trim.dropWhile Text.isBlank = [] := List.dropWhile_eq_nil_iff.mpr hall
  rwa [(Text.trimmed_trim t).dropWhile_isBlank] at hdrop

/-- **A list that is cut after it is scanned gives the symbols of its parts.** -/
theorem scans_splitParts {t : Text} {ss : List Symbol} (h : Scans t ss) (ht : t.Unescaped) :
    List.Forall₂ Scans (splitParts t) (Symbol.groups ss) := by
  have hpieces : List.Forall₂ Token.Reads (piecesFrom none none 0 t.trim)
      (Symbol.groupsFrom 0 ss) :=
    forall₂_reads_piecesFrom (scans_iff.mp h) ht.trim (fun hp => by cases hp) 0
  -- trimming loses no symbols, and leaves a part empty only if it has none
  have htrim : List.Forall₂ (fun part group => Scans part group ∧ part.isEmpty = group.isEmpty)
      ((piecesFrom none none 0 t.trim).map Text.trim) (Symbol.groupsFrom 0 ss) := by
    rw [List.forall₂_map_left_iff]
    refine hpieces.imp fun piece group hreads => ⟨scans_iff.mpr ?_, reads_isEmpty_iff hreads.trim⟩
    rw [(Text.trimmed_trim piece).trim_eq]
    exact hreads.trim
  rw [← splitParts_trim]
  refine (List.rel_filter ?_ htrim).imp fun _ _ hscans => hscans.1
  rintro part group ⟨-, hempty⟩
  simp only [hempty]

/-- A list with a comma in a string, one in parentheses, an empty part and a bracket that closes
nothing. -/
theorem scans_splitParts_mixed :
    List.Forall₂ Scans (splitParts "'a, b', f(x, y),, v[i]), c".toList)
      [[.string "a, b".toList],
        [.word "f".toList, .paren true, .word "x".toList, .comma, .word "y".toList, .paren false],
        [.word "v".toList, .bracket true, .word "i".toList, .bracket false, .paren false],
        [.word "c".toList]] := by
  have hscans : Scans "'a, b', f(x, y),, v[i]), c".toList
      [.string "a, b".toList, .comma, .word "f".toList, .paren true, .word "x".toList, .comma,
        .word "y".toList, .paren false, .comma, .comma, .word "v".toList, .bracket true,
        .word "i".toList, .bracket false, .paren false, .comma, .word "c".toList] := by
    decide +kernel
  exact scans_splitParts hscans (by decide)

end Pseudocode
