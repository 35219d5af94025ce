import Pseudocode.Expr.Parts
import Pseudocode.Proofs.Text.Trim

/-!
# Cutting a part again

Whether a comma separates parts depends on what stands before it: which string is open, how many
brackets are, and whether a backslash stands before a quote. **A part of a list is a list of one
part, itself** (`splitParts_of_mem`), because a part begins where nothing is open and what is cut
off at its ends are blanks, which open and close nothing.

`Whole` says that a text is not cut, from a given state on. It passes from a text to what its front
part leaves behind (`whole_cons_iff`) and to every front part of the text (`Whole.front`).
-/

namespace Pseudocode

/-! ### The state behind a character -/

/-- The string that is open behind a character. -/
def quoteBehind (previous : Option Char) (c : Char) (quote : Option Char) : Option Char :=
  if isQuote c && previous != some '\\' then quoteAfter c quote else quote

/-- The number of brackets that are open behind a character. -/
def depthBehind (previous : Option Char) (c : Char) (quote : Option Char) (depth : Nat) : Nat :=
  if isQuote c && previous != some '\\' then depth
  else if (c == '(' || c == '[') && quote.isNone then depth + 1
  else if (c == ')' || c == ']') && quote.isNone then depth - 1
  else depth

/-- Whether a character separates parts. -/
def separates (quote : Option Char) (depth : Nat) (c : Char) : Bool :=
  c == ',' && quote.isNone && depth == 0

/-- Puts a character in front of the first piece. -/
def keep (c : Char) : List Text → List Text
  | [] => [[c]]
  | piece :: more => (c :: piece) :: more

section Pieces

variable {previous quote : Option Char} {depth : Nat} {c : Char} {t : Text}

/-- **How the pieces of a text come from those of the rest.** -/
theorem piecesFrom_cons (previous quote : Option Char) (depth : Nat) (c : Char) (rest : Text) :
    piecesFrom previous quote depth (c :: rest) =
      if separates quote depth c then [] :: piecesFrom (some ',') none 0 rest
      else keep c (piecesFrom (some c) (quoteBehind previous c quote)
        (depthBehind previous c quote depth) rest) := by
  rw [piecesFrom, quoteBehind, depthBehind]
  by_cases hsep : separates quote depth c = true
  · obtain ⟨⟨hcomma, hquote⟩, hdepth⟩ : (c = ',' ∧ quote = none) ∧ depth = 0 := by
      simpa [separates] using hsep
    subst hcomma hquote hdepth
    rfl
  · have hnot : ¬ (c == ',' && quote.isNone && depth == 0) = true := hsep
    rw [if_neg hsep, if_neg hnot]
    split
    · rfl
    split
    · rfl
    split <;> rfl

/-- There is always a piece, if an empty one. -/
theorem piecesFrom_ne_nil (previous quote : Option Char) (depth : Nat) (t : Text) :
    piecesFrom previous quote depth t ≠ [] := by
  cases t with
  | nil => simp [piecesFrom]
  | cons c rest =>
    rw [piecesFrom_cons]
    split
    · exact List.cons_ne_nil _ _
    · cases piecesFrom _ _ _ rest <;> exact List.cons_ne_nil _ _

/-- The character before a text matters only if it is a backslash. -/
theorem piecesFrom_previous {before : Option Char} (hprevious : previous ≠ some '\\')
    (hbefore : before ≠ some '\\') (t : Text) :
    piecesFrom previous quote depth t = piecesFrom before quote depth t := by
  cases t with
  | nil => rfl
  | cons c rest =>
    have hp : (previous != some '\\') = true := bne_iff_ne.mpr hprevious
    have hb : (before != some '\\') = true := bne_iff_ne.mpr hbefore
    rw [piecesFrom_cons, piecesFrom_cons, quoteBehind, quoteBehind, depthBehind, depthBehind, hp,
      hb]

/-! ### Texts that are not cut -/

/-- The text is not cut, from the given state on. -/
def Whole (previous quote : Option Char) (depth : Nat) (t : Text) : Prop :=
  piecesFrom previous quote depth t = [t]

private theorem whole_nil (previous quote : Option Char) (depth : Nat) :
    Whole previous quote depth [] :=
  rfl

/-- A text is not cut if its first character does not separate and the rest is not cut. -/
theorem whole_cons_iff : Whole previous quote depth (c :: t) ↔ separates quote depth c = false ∧
    Whole (some c) (quoteBehind previous c quote) (depthBehind previous c quote depth) t := by
  rw [Whole, Whole, piecesFrom_cons]
  by_cases hsep : separates quote depth c = true
  · simp [hsep]
  · rw [if_neg hsep]
    have hne := piecesFrom_ne_nil (some c) (quoteBehind previous c quote)
      (depthBehind previous c quote depth) t
    obtain ⟨piece, more, hpieces⟩ := List.exists_cons_of_ne_nil hne
    rw [hpieces, keep]
    simp [hsep]

/-- A front part of a text that is not cut is not cut. -/
theorem Whole.front {u : Text} (h : Whole previous quote depth (t ++ u)) :
    Whole previous quote depth t := by
  induction t generalizing previous quote depth with
  | nil => exact whole_nil _ _ _
  | cons c rest ih =>
    obtain ⟨hsep, hrest⟩ := whole_cons_iff.mp h
    exact whole_cons_iff.mpr ⟨hsep, ih hrest⟩

/-- **The pieces of a text are not cut again**: the first of them from the state that the text
starts in, the others from where nothing is open. -/
theorem whole_pieces (previous quote : Option Char) (depth : Nat) (t : Text) :
    ∃ first more, piecesFrom previous quote depth t = first :: more ∧
      Whole previous quote depth first ∧ ∀ piece ∈ more, Whole (some ',') none 0 piece := by
  induction t generalizing previous quote depth with
  | nil => exact ⟨[], [], rfl, whole_nil _ _ _, nofun⟩
  | cons c rest ih =>
    rw [piecesFrom_cons]
    by_cases hsep : separates quote depth c = true
    · obtain ⟨first, more, hpieces, hfirst, hmore⟩ := ih (some ',') none 0
      refine ⟨[], first :: more, by rw [if_pos hsep, hpieces], whole_nil _ _ _, ?_⟩
      exact List.forall_mem_cons.mpr ⟨hfirst, hmore⟩
    · obtain ⟨first, more, hpieces, hfirst, hmore⟩ := ih (some c) (quoteBehind previous c quote)
        (depthBehind previous c quote depth)
      refine ⟨c :: first, more, by rw [if_neg hsep, hpieces, keep], ?_, hmore⟩
      exact whole_cons_iff.mpr ⟨(Bool.not_eq_true _).mp hsep, hfirst⟩

/-! ### Blanks at the ends -/

/-- A blank is none of the characters that are not blank. -/
theorem ne_of_isBlank {d : Char} (hc : Text.isBlank c = true) (hd : Text.isBlank d = false) :
    c ≠ d := by
  rintro rfl
  rw [hc] at hd
  cases hd

/-- Blanks open and close nothing. -/
theorem behind_of_isBlank (h : Text.isBlank c = true) (previous quote : Option Char) (depth : Nat) :
    quoteBehind previous c quote = quote ∧ depthBehind previous c quote depth = depth := by
  have hquote : isQuote c = false := by
    simp [isQuote, ne_of_isBlank h (d := Text.doubleQuote) (by decide),
      ne_of_isBlank h (d := Text.singleQuote) (by decide)]
  have hopen : (c == '(' || c == '[') = false := by
    simp [ne_of_isBlank h (d := '(') (by decide), ne_of_isBlank h (d := '[') (by decide)]
  have hclose : (c == ')' || c == ']') = false := by
    simp [ne_of_isBlank h (d := ')') (by decide), ne_of_isBlank h (d := ']') (by decide)]
  simp [quoteBehind, depthBehind, hquote, hopen, hclose]

private theorem Whole.dropWhile_isBlank (h : Whole previous none 0 t)
    (hprevious : previous ≠ some '\\') :
    Whole none none 0 (t.dropWhile Text.isBlank) := by
  induction t generalizing previous with
  | nil => exact whole_nil _ _ _
  | cons c rest ih =>
    by_cases hblank : Text.isBlank c = true
    · obtain ⟨hquote, hdepth⟩ := behind_of_isBlank hblank previous none 0
      have hrest := (whole_cons_iff.mp h).2
      rw [hquote, hdepth] at hrest
      have hc : some c ≠ some '\\' := fun hc =>
        ne_of_isBlank hblank (d := '\\') (by decide) (Option.some.inj hc)
      rw [List.dropWhile_cons_of_pos hblank]
      exact ih hrest hc
    · rw [List.dropWhile_cons_of_neg hblank]
      exact (piecesFrom_previous (Option.some_ne_none _).symm hprevious _).trans h

private theorem Whole.trim (h : Whole previous none 0 t) (hprevious : previous ≠ some '\\') :
    Whole none none 0 t.trim := by
  obtain ⟨rest, hrest⟩ := Text.trimEnd_prefix t.trimStart
  have hstart := h.dropWhile_isBlank hprevious
  rw [← Text.trimStart, ← hrest] at hstart
  exact hstart.front

end Pieces

/-- **A part of a list is a list of one part, itself.** It is not empty, and it is trimmed. -/
theorem splitParts_of_mem {t p : Text} (h : p ∈ splitParts t) :
    p ≠ [] ∧ p.Trimmed ∧ splitParts p = [p] := by
  obtain ⟨hmem, hne⟩ := List.mem_filter.mp h
  obtain ⟨piece, hpiece, rfl⟩ := List.mem_map.mp hmem
  have htrimmed := Text.trimmed_trim piece
  have hwhole : Whole none none 0 piece.trim := by
    obtain ⟨first, more, hpieces, hfirst, hmore⟩ := whole_pieces none none 0 t
    rw [hpieces] at hpiece
    rcases List.mem_cons.mp hpiece with rfl | hpiece
    · exact hfirst.trim nofun
    · exact (hmore piece hpiece).trim (by decide)
  refine ⟨by simpa using hne, htrimmed, ?_⟩
  rw [splitParts, hwhole, List.map_singleton, htrimmed.trim_eq]
  exact List.filter_cons_of_pos hne

end Pseudocode
