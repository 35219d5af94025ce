import Pseudocode.Proofs.Text.Trim
import Pseudocode.Token.Lexer

/-!
# Quoted literals

A quote opens a string, and the next quote of the same kind closes it; what stands between them is
of no account. `literals` lists the strings of a text that are closed, quotes included, and `Closed`
says that all of them are.

A text with closed quotes is a row of plain characters and whole literals (`Closed.quoting`). So
literals add up when texts are put one behind the other (`Quoting.append`), and **pieces without
quotes at the ends of a text make no difference to its literals** (`Framed.literals_eq`).
-/

namespace Pseudocode

namespace Text

/-! ### Quotes and literals -/

/-- The quote of the string that is open behind a character. -/
def quotePast : Option Char → Char → Option Char
  | none, c => if isQuote c then some c else none
  | some q, c => if c = q then none else some q

/-- The quote of the string that is open behind a text. -/
def openQuote (quote : Option Char) (t : Text) : Option Char := t.foldl quotePast quote

/-- Every quote of the text is closed. -/
def Closed (t : Text) : Prop := openQuote none t = none

instance (t : Text) : Decidable (Closed t) := inferInstanceAs (Decidable (_ = _))

/-- The quoted literals of a text, quotes included: `quote` is the quote of the string that is open,
and `front` is what of this string stands before the text. A string that is not closed is no
literal. -/
def literalsFrom : Option Char → Text → Text → List Text
  | _, _, [] => []
  | none, _, c :: rest =>
    if isQuote c then literalsFrom (some c) [c] rest else literalsFrom none [] rest
  | some q, front, c :: rest =>
    if c = q then (front ++ [c]) :: literalsFrom none [] rest
    else literalsFrom (some q) (front ++ [c]) rest

/-- The quoted literals of a text, from left to right. -/
def literals (t : Text) : List Text := literalsFrom none [] t

private theorem openQuote_append (quote : Option Char) (t u : Text) :
    openQuote quote (t ++ u) = openQuote (openQuote quote t) u :=
  List.foldl_append

/-- A text with closed quotes and its literals, put together from left to right. -/
inductive Quoting : Text → List Text → Prop where
  | nil : Quoting [] []
  /-- A character outside of literals. -/
  | plain {c : Char} {t : Text} {ls : List Text} : isQuote c = false → Quoting t ls →
      Quoting (c :: t) ls
  /-- A literal reaches to the next quote of its kind. -/
  | literal {q : Char} {content t : Text} {ls : List Text} : isQuote q = true → q ∉ content →
      Quoting t ls → Quoting (q :: (content ++ q :: t)) ((q :: (content ++ [q])) :: ls)

section Quoting

variable {q c : Char} {t u v content : Text} {ls ms : List Text}

/-- Inside a literal nothing but its own quote counts. -/
private theorem openQuote_some (h : q ∉ content) : openQuote (some q) content = some q := by
  induction content with
  | nil => rfl
  | cons c content ih =>
    have hc : c ≠ q := fun hc => h (hc ▸ List.mem_cons_self)
    have hpast : quotePast (some q) c = some q := if_neg hc
    rw [openQuote, List.foldl_cons, hpast]
    exact ih fun hmem => h (List.mem_cons_of_mem _ hmem)

private theorem literalsFrom_some (h : q ∉ content) (front t : Text) :
    literalsFrom (some q) front (content ++ q :: t) =
      (front ++ content ++ [q]) :: literalsFrom none [] t := by
  induction content generalizing front with
  | nil => simp [literalsFrom]
  | cons c content ih =>
    have hc : c ≠ q := fun hc => h (hc ▸ List.mem_cons_self)
    have hrest := ih (fun hmem => h (List.mem_cons_of_mem _ hmem)) (front ++ [c])
    rw [List.cons_append, literalsFrom, if_neg hc, hrest]
    simp

/-- A text that is made of strings and of what is between them leaves no string open. -/
theorem Quoting.closed (h : Quoting t ls) : Closed t := by
  induction h with
  | nil => rfl
  | @plain c t ls hc _ ih =>
    have hpast : quotePast none c = none := if_neg (by simp [hc])
    rw [Closed, openQuote, List.foldl_cons, hpast]
    exact ih
  | @literal q content t ls hq hcontent _ ih =>
    have hopen : quotePast none q = some q := if_pos hq
    have hclose : quotePast (some q) q = none := if_pos rfl
    rw [Closed, openQuote, List.foldl_cons, hopen, ← openQuote, openQuote_append,
      openQuote_some hcontent, openQuote, List.foldl_cons, hclose]
    exact ih

/-- The strings that a text is made of are those that are found in it. -/
theorem Quoting.literals_eq (h : Quoting t ls) : literals t = ls := by
  induction h with
  | nil => rfl
  | plain hc _ ih =>
    rw [literals, literalsFrom, if_neg (by simp [hc])]
    exact ih
  | literal hq hcontent _ ih =>
    rw [literals, literalsFrom, if_pos hq, literalsFrom_some hcontent, ← literals, ih]
    rfl

/-- **A text with closed quotes is put together from plain characters and literals.** -/
theorem Closed.quoting (h : Closed t) : Quoting t (literals t) := by
  suffices hex : ∃ ls, Quoting t ls by
    obtain ⟨ls, hls⟩ := hex
    rwa [hls.literals_eq]
  induction hlength : t.length using Nat.strong_induction_on generalizing t with
  | _ n ih =>
    subst hlength
    cases t with
    | nil => exact ⟨[], .nil⟩
    | cons c rest =>
      rcases Bool.eq_false_or_eq_true (isQuote c) with hc | hc
      · have hopen : openQuote (some c) rest = none := by
          rwa [Closed, openQuote, List.foldl_cons,
            show quotePast none c = some c from if_pos hc] at h
        have hmem : c ∈ rest := by
          by_contra hmem
          cases hopen.symm.trans (openQuote_some hmem)
        obtain ⟨content, behind, rfl, hcontent⟩ := List.eq_append_cons_of_mem hmem
        have hbehind : Closed behind := by
          rwa [openQuote_append, openQuote_some hcontent, openQuote, List.foldl_cons,
            show quotePast (some c) c = none from if_pos rfl] at hopen
        obtain ⟨ls, hls⟩ := ih behind.length (by simp; omega) hbehind rfl
        exact ⟨_, .literal hc hcontent hls⟩
      · have hrest : Closed rest := by
          rwa [Closed, openQuote, List.foldl_cons,
            show quotePast none c = none from if_neg (by simp [hc])] at h
        obtain ⟨ls, hls⟩ := ih rest.length (by simp) hrest rfl
        exact ⟨ls, .plain hc hls⟩

/-- Texts that leave no string open have their strings one after the other. -/
theorem Quoting.append (ht : Quoting t ls) (hu : Quoting u ms) : Quoting (t ++ u) (ls ++ ms) := by
  induction ht with
  | nil => exact hu
  | plain hc _ ih => exact .plain hc ih
  | literal hq hcontent _ ih =>
    have hliteral := Quoting.literal hq hcontent ih
    simpa using hliteral

/-! ### Pieces without quotes -/

/-- No quote stands in the text. -/
def Unquoted (t : Text) : Prop := ∀ c ∈ t, isQuote c = false

private theorem Unquoted.quoting (h : Unquoted t) : Quoting t [] := by
  induction t with
  | nil => exact .nil
  | cons c t ih =>
    obtain ⟨hc, ht⟩ := List.forall_mem_cons.mp h
    exact .plain hc (ih ht)

/-- Blanks are no quotes. -/
theorem unquoted_of_isBlank (h : ∀ c ∈ t, isBlank c = true) : Unquoted t := by
  intro c hc
  have hblank := h c hc
  have hdouble : c ≠ doubleQuote := by
    rintro rfl
    revert hblank
    decide
  have hsingle : c ≠ singleQuote := by
    rintro rfl
    revert hblank
    decide
  simp [isQuote, hdouble, hsingle]

private theorem Quoting.of_cons (hc : isQuote c = false) (h : Quoting (c :: t) ls) :
    Quoting t ls := by
  generalize htext : c :: t = text at h
  cases h with
  | nil => cases htext
  | plain _ ht =>
    obtain ⟨rfl, rfl⟩ := List.cons.inj htext
    exact ht
  | literal hq _ _ =>
    obtain ⟨rfl, -⟩ := List.cons.inj htext
    cases hc.symm.trans hq

/-- What is in front of the strings of a text can be taken off. -/
theorem Quoting.of_append (hu : Unquoted u) (h : Quoting (u ++ t) ls) : Quoting t ls := by
  induction u with
  | nil => exact h
  | cons c u ih =>
    obtain ⟨hc, hu⟩ := List.forall_mem_cons.mp hu
    exact ih hu (h.of_cons hc)

/-- A quote that is open is a quote. -/
private theorem isQuote_of_openQuote (h : openQuote none t = some q) : isQuote q = true := by
  induction t using List.reverseRecOn with
  | nil => cases h
  | append_singleton t c ih =>
    rw [openQuote_append] at h
    cases hopen : openQuote none t with
    | none =>
      rw [hopen] at h
      change (if isQuote c then some c else none) = some q at h
      split at h
      · next hc =>
        obtain rfl := Option.some.inj h
        exact hc
      · cases h
    | some k =>
      rw [hopen] at h
      change (if c = k then none else some k) = some q at h
      split at h
      · cases h
      · obtain rfl := Option.some.inj h
        exact ih hopen

private theorem Closed.of_append (hv : Unquoted v) (h : Closed (t ++ v)) : Closed t := by
  rw [Closed, openQuote_append] at h
  cases hopen : openQuote none t with
  | none => exact hopen
  | some q =>
    -- nothing that follows could close the string
    have hq := isQuote_of_openQuote hopen
    have hmem : q ∉ v := fun hmem => by cases hq.symm.trans (hv q hmem)
    rw [hopen, openQuote_some hmem] at h
    cases h

/-- The first text is what is left of the second one when pieces without quotes are cut off at its
ends. -/
def Framed (inner outer : Text) : Prop :=
  ∃ u v, outer = u ++ (inner ++ v) ∧ Unquoted u ∧ Unquoted v

/-- A frame around a frame is a frame. -/
theorem Framed.trans {inner middle outer : Text} (h : Framed inner middle)
    (h' : Framed middle outer) : Framed inner outer := by
  obtain ⟨u, v, rfl, hu, hv⟩ := h
  obtain ⟨u', v', rfl, hu', hv'⟩ := h'
  refine ⟨u' ++ u, v ++ v', by simp, ?_, ?_⟩
  · exact List.forall_mem_append.mpr ⟨hu', hu⟩
  · exact List.forall_mem_append.mpr ⟨hv, hv'⟩

/-- **Pieces without quotes at the ends make no difference to the literals.** -/
theorem Framed.literals_eq {inner outer : Text} (h : Framed inner outer) (hclosed : Closed outer) :
    Closed inner ∧ literals inner = literals outer := by
  obtain ⟨u, v, rfl, hu, hv⟩ := h
  have htail := hclosed.quoting.of_append hu
  have hinner := htail.closed.of_append hv
  have happend := hinner.quoting.append hv.quoting
  rw [List.append_nil] at happend
  exact ⟨hinner, happend.literals_eq.symm.trans htail.literals_eq⟩

/-- What is trimmed off the end of a text is a frame. -/
theorem framed_trimEnd (t : Text) : Framed (trimEnd t) t := by
  obtain ⟨v, hv, hblank⟩ := exists_eq_trimEnd_append t
  exact ⟨[], v, hv, List.forall_mem_nil _, unquoted_of_isBlank hblank⟩

/-- What is trimmed off a text is a frame. -/
theorem framed_trim (t : Text) : Framed t.trim t := by
  have hstart : Framed (trimStart t) t := by
    refine ⟨t.takeWhile isBlank, [], ?_, ?_, List.forall_mem_nil _⟩
    · rw [List.append_nil, trimStart, List.takeWhile_append_dropWhile]
    · exact unquoted_of_isBlank fun c hc => List.mem_takeWhile_imp hc
  exact (framed_trimEnd _).trans hstart

end Quoting

end Text

end Pseudocode
