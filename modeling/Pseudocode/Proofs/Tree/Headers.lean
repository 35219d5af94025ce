import Pseudocode.Proofs.Pattern.Ways
import Pseudocode.Proofs.Text.Trim
import Pseudocode.Statement.Parser

/-!
# Canonical headers

The headers of blocks in their plain spelling: `Mientras c Hacer`, `Para v <- a Hasta b Con Paso s
Hacer`, `Si c Entonces`, `SiNo Si c Entonces` and `Segun e Hacer`. **The pattern of a header finds
the expressions that the header was written with** (`find?_whileLoop`, `find?_forLoop`,
`find?_choice`, `find?_conditional`, `find?_chained`).

A pattern takes as little as it can for an expression, so what has to be shown is that it cannot
stop early. The word `Hacer` does no harm inside an expression, because the line must end behind it
(`header_eq_nil`). The other words that end an expression do, and an `Operand` mentions none of
them: a match that stopped inside the expression would find the word there, since behind the
expression stands a blank and a keyword holds none (`exists_keyword_within`,
`mentioned_of_within`).
-/

namespace Pseudocode.Structured

open Pattern

/-- The phrases that part the expressions of a header from what follows them. -/
def separators : List (Pattern Unit) :=
  [keyword "hasta", (do keyword "con"; blanks; keyword "paso"), keyword "entonces"]

/-- An expression as it stands in a header: a text without blanks at its ends in which no separator
is mentioned. -/
structure Operand where
  text : Text
  nonempty : text ≠ []
  trimmed : text.Trimmed
  free : ∀ phrase ∈ separators, ¬ phrase.Mentioned text

/-- The counter of a loop: a word. -/
structure Counter where
  text : Text
  nonempty : text ≠ []
  word : ∀ k ∈ text, Text.isWordChar k = true

/-- `Mientras c Hacer`. -/
def whileText (condition : Operand) : Text :=
  "Mientras ".toList ++ (condition.text ++ " Hacer".toList)

/-- `Segun e Hacer`. -/
def choiceText (subject : Operand) : Text :=
  "Segun ".toList ++ (subject.text ++ " Hacer".toList)

/-- `Si c Entonces`. -/
def conditionalText (condition : Operand) : Text :=
  "Si ".toList ++ (condition.text ++ " Entonces".toList)

/-- `SiNo Si c Entonces`. -/
def chainedText (condition : Operand) : Text :=
  "SiNo Si ".toList ++ (condition.text ++ " Entonces".toList)

/-- What follows the last value of a counter: `Con Paso s Hacer` or `Hacer`. -/
def stepText : Option Operand → Text
  | none => " Hacer".toList
  | some step => " Con Paso ".toList ++ (step.text ++ " Hacer".toList)

/-- `Para v <- a Hasta b Con Paso s Hacer`, or the same without a step. -/
def forText (counter : Counter) (first last : Operand) (step : Option Operand) : Text :=
  "Para ".toList ++ (counter.text ++ (" <- ".toList ++ (first.text ++
    (" Hasta ".toList ++ (last.text ++ stepText step)))))

/-! ### Where an expression ends -/

namespace Operand

/-- An operand does not start with a blank. -/
theorem head (e : Operand) (u : Text) : ∀ k ∈ (e.text ++ u).head?, Text.isBlank k = false := by
  intro k hk
  obtain ⟨c, rest, hc⟩ := List.exists_cons_of_ne_nil e.nonempty
  rw [hc] at hk
  exact e.trimmed.head k (by rw [hc]; exact hk)

/-- A part at the end of an expression does not end with a blank. -/
private theorem last {e : Operand} {a b : Text} (h : e.text = a ++ b) :
    ∀ k ∈ b.getLast?, Text.isBlank k = false := by
  intro k hk
  refine e.trimmed.last k ?_
  rw [h, List.getLast?_append, Option.mem_def.mp hk]
  rfl

private theorem exists_not_blank {e : Operand} {a b : Text} (h : e.text = a ++ b) (hb : b ≠ []) :
    ∃ k ∈ b, Text.isBlank k = false :=
  ⟨b.getLast hb, List.getLast_mem hb, last h _ (List.getLast?_eq_some_getLast hb)⟩

end Operand

/-- `Hacer` ends a header only if nothing but blanks stands before it. -/
theorem header_eq_nil {c : Cursor} {y : Text} (hc : c.rest = y ++ " Hacer".toList)
    (hy : ∃ k ∈ y, Text.isBlank k = false) : Shape.header c = [] := by
  refine List.eq_nil_iff_forall_not_mem.mpr fun x hx => ?_
  rw [Shape.header, optional_bind, List.mem_append] at hx
  rcases hx with hx | hx
  · rw [bind_assoc, mem_bind] at hx
    obtain ⟨z, hz, hx⟩ := hx
    obtain ⟨bl, rest, -, hrest, hbl, rfl⟩ := mem_blanks.mp hz
    obtain ⟨w, hw, hx⟩ := mem_bind.mp hx
    obtain ⟨kw, z, hkw, hfold, rfl⟩ := mem_keyword.mp hw
    obtain ⟨hz, -⟩ := mem_finish.mp hx
    obtain rfl : z = [] := hz
    rw [show rest = kw ++ [] from hkw, List.append_nil, hc] at hrest
    have hlen : kw.length = "Hacer".toList.length := by
      rw [← List.length_map Text.foldKeyword, hfold]
      rfl
    have hsplit : (y ++ [' ']) ++ "Hacer".toList = bl ++ kw := by
      rw [← hrest, List.append_assoc]
      rfl
    obtain ⟨hy', -⟩ := List.append_inj' hsplit hlen.symm
    obtain ⟨k, hk, hblank⟩ := hy
    rw [hbl k (by rw [← hy']; exact List.mem_append_left _ hk)] at hblank
    cases hblank
  · obtain ⟨hnil, -⟩ := mem_finish.mp hx
    rw [hc] at hnil
    cases (List.append_eq_nil_iff.mp hnil).2

/-- What a piece keeps of a text is the front that it was cut to. -/
theorem text_append (t u : Text) : Piece.text ⟨t ++ u, t.length⟩ = t := List.take_left

private theorem finds_header (before : Option Char) :
    Finds Shape.header ⟨before, " Hacer".toList⟩ () ⟨some 'r', []⟩ :=
  rfl

/-- A header with one expression, up to `Hacer`. -/
private theorem finds_headed {word : String} {w : Text} (hw : w.map Text.foldKeyword = word.toList)
    (e : Operand) :
    Finds (do keyword word; blanks; let piece ← few anything; Shape.header; return piece.text)
      (.start (w ++ ' ' :: (e.text ++ " Hacer".toList))) e.text ⟨some 'r', []⟩ := by
  refine (finds_keyword hw).bind ((finds_blanks (e.head _)).bind ?_)
  refine Finds.few (t := e.text) (u := " Hacer".toList) rfl e.nonempty (fun a b hab _ hb => ?_) ?_
  · -- a shorter expression would leave more than blanks before `Hacer`
    refine bind_eq_nil_iff.mpr fun y hy => ?_
    rw [header_eq_nil (y := b) rfl (Operand.exists_not_blank hab hb)] at hy
    cases hy
  · exact (finds_header _).bind (finds_pure (text_append _ _) _)

/-- A phrase is mentioned where it has a way that starts behind a blank with a word character and
ends, behind a word character, at the end or before a character that is none. -/
theorem mentioned_of_mem {phrase : Pattern Unit} {a b : Text} {x : Unit × Cursor}
    (hx : x ∈ phrase ⟨a.getLast?, b⟩) (ha : a.getLast?.any Text.isBlank = true)
    (hb : b.head?.any Text.isWordChar = true) (hx₁ : x.2.before.any Text.isWordChar = true)
    (hx₂ : x.2.rest.head?.any Text.isWordChar = false) : phrase.Mentioned (a ++ b) := by
  have hstart : a.getLast?.any Text.isWordChar = false := by
    cases hlast : a.getLast? with
    | none => rfl
    | some k =>
      rw [hlast] at ha
      exact Text.isWordChar_eq_false_of_isBlank ha
  refine ⟨a, b, rfl, List.ne_nil_of_mem (a := ((), x.2)) ?_⟩
  refine mem_bind.mpr ⟨_, mem_edge.mpr ⟨?_, rfl⟩, mem_bind.mpr ⟨x, hx, mem_edge.mpr ⟨?_, rfl⟩⟩⟩
  · rw [hstart, hb]
    exact Bool.false_ne_true
  · rw [hx₁, hx₂]
    exact Bool.false_ne_true.symm

/-- The last character of a text has a property that all its characters have. -/
theorem any_getLast? {p : Char → Bool} {t : Text} {before : Option Char} (ht : t ≠ [])
    (h : ∀ k ∈ t, p k = true) : (t.getLast?.or before).any p = true := by
  rw [List.getLast?_eq_some_getLast ht]
  exact h _ (List.getLast_mem ht)

/-- The first character of a text has a property that all its characters have. -/
theorem any_head? {p : Char → Bool} {t u : Text} (ht : t ≠ []) (h : ∀ k ∈ t, p k = true) :
    (t ++ u).head?.any p = true := by
  obtain ⟨k, rest, rfl⟩ := List.exists_cons_of_ne_nil ht
  exact h k List.mem_cons_self

/-- What a word before a blank starts with, the blank has no part in. -/
private theorem head?_any_of_append {u rest : Text}
    (h : (u ++ ' ' :: rest).head?.any Text.isWordChar = false) :
    u.head?.any Text.isWordChar = false := by
  cases u with
  | nil => rfl
  | cons k u => exact h

/-- Where blanks are read, no word goes on. -/
theorem head?_any_of_mem_blanks {c : Cursor} {y : Unit × Cursor} (h : y ∈ blanks c) :
    c.rest.head?.any Text.isWordChar = false := by
  obtain ⟨bl, r, hbl, hr, hblank, -⟩ := mem_blanks.mp h
  obtain ⟨k, bl, rfl⟩ := List.exists_cons_of_ne_nil hbl
  rw [hr]
  exact Text.isWordChar_eq_false_of_isBlank (hblank k List.mem_cons_self)

/-- A word written as a keyword: small letters, at least one. -/
structure IsKeyword (word : String) : Prop where
  nonempty : word.toList ≠ []
  letters : ∀ k ∈ word.toList, Text.IsKeyLetter k

instance (word : String) : Decidable (IsKeyword word) :=
  decidable_of_iff
    (word.toList ≠ [] ∧ word.toList.all (fun k => decide (Text.IsKeyLetter k)) = true)
    ⟨fun h => ⟨h.1, fun k hk => of_decide_eq_true (List.all_eq_true.mp h.2 k hk)⟩,
      fun h => ⟨h.nonempty, List.all_eq_true.mpr fun k hk => decide_eq_true (h.letters k hk)⟩⟩

/-- A spelling of a keyword is not empty. -/
theorem IsKeyword.ne_nil {word : String} (hw : IsKeyword word) {kw : Text}
    (h : kw.map Text.foldKeyword = word.toList) : kw ≠ [] := by
  rintro rfl
  exact hw.nonempty h.symm

/-- Behind a keyword one stands behind a word character. -/
theorem IsKeyword.before {word : String} (hw : IsKeyword word) {c : Cursor} {z : Unit × Cursor}
    (h : z ∈ keyword word c) : z.2.before.any Text.isWordChar = true := by
  obtain ⟨kw, r, -, hkw, rfl⟩ := mem_keyword.mp h
  exact any_getLast? (hw.ne_nil hkw) (isWordChar_of_map_foldKeyword hkw hw.letters)

section Within

variable {e : Operand} {a b rest : Text} {word : String} {c : Cursor} {y z : Unit × Cursor}

/-- Where blanks and a keyword are found from inside an expression that a blank follows, the keyword
stands in the expression. -/
theorem exists_keyword_within (hab : e.text = a ++ b) (hb : b ≠ []) (hw : IsKeyword word)
    (hc : c.rest = b ++ ' ' :: rest) (hy : y ∈ blanks c) (hz : z ∈ keyword word y.2) :
    ∃ bl kw u, bl ≠ [] ∧ (∀ k ∈ bl, Text.isBlank k = true) ∧
      kw.map Text.foldKeyword = word.toList ∧ b = bl ++ (kw ++ u) ∧
      z.2.rest = u ++ ' ' :: rest := by
  obtain ⟨bl, r, hbl, hr, hblank, rfl⟩ := mem_blanks.mp hy
  obtain ⟨kw, v, hv, hkw, rfl⟩ := mem_keyword.mp hz
  have hsplit : b ++ ' ' :: rest = bl ++ kw ++ v := by
    rw [List.append_assoc, ← show r = kw ++ v from hv, ← hr, hc]
  obtain ⟨u, hb', hu⟩ := keyword_before_blank hb (Operand.last hab) hblank hkw hw.letters hsplit
  exact ⟨bl, kw, u, hbl, hblank, hkw, by rw [hb', List.append_assoc], hu⟩

/-- A text that ends in blanks ends in a blank. -/
theorem any_getLast?_append {bl : Text} (hbl : bl ≠ []) (hblank : ∀ k ∈ bl, Text.isBlank k = true) :
    (a ++ bl).getLast?.any Text.isBlank = true := by
  rw [List.getLast?_append]
  exact any_getLast? hbl hblank

/-- A keyword that is found from inside an expression is mentioned in it. -/
theorem mentioned_of_within (hab : e.text = a ++ b) (hb : b ≠ []) (hw : IsKeyword word)
    (hc : c.rest = b ++ ' ' :: rest) (hy : y ∈ blanks c) (hz : z ∈ keyword word y.2)
    (hend : z.2.rest.head?.any Text.isWordChar = false) : (keyword word).Mentioned e.text := by
  obtain ⟨bl, kw, u, hbl, hblank, hkw, rfl, hu⟩ := exists_keyword_within hab hb hw hc hy hz
  rw [hu] at hend
  rw [hab, ← List.append_assoc]
  exact mentioned_of_mem (mem_keyword.mpr ⟨kw, u, rfl, hkw, rfl⟩) (any_getLast?_append hbl hblank)
    (any_head? (hw.ne_nil hkw) (isWordChar_of_map_foldKeyword hkw hw.letters))
    (any_getLast? (hw.ne_nil hkw) (isWordChar_of_map_foldKeyword hkw hw.letters))
    (head?_any_of_append hend)

end Within

/-- A text whose first character is not blank does not start with a blank. -/
theorem head_of_not_blank {k : Char} {rest : Text} (h : Text.isBlank k = false) :
    ∀ m ∈ (k :: rest).head?, Text.isBlank m = false := by
  rintro m ⟨⟩
  exact h

/-- **A condition ends at the first `Entonces`**, and it holds none. -/
theorem finds_thenClause (e : Operand) (before : Option Char) :
    Finds Shape.thenClause ⟨before, e.text ++ " Entonces".toList⟩ e.text ⟨some 's', []⟩ := by
  have hw : IsKeyword "entonces" := by decide
  refine Finds.few (t := e.text) (u := " Entonces".toList) rfl e.nonempty
    (fun a b hab _ hb => ?_) ?_
  · refine List.eq_nil_iff_forall_not_mem.mpr fun x hx => ?_
    obtain ⟨y, hy, hx⟩ := mem_bind.mp hx
    obtain ⟨z, hz, hx⟩ := mem_bind.mp hx
    obtain ⟨v, hv, -⟩ := mem_bind.mp hx
    obtain ⟨hedge, -⟩ := mem_edge.mp hv
    rw [hw.before hz] at hedge
    exact e.free (keyword "entonces") (by simp [separators])
      (mentioned_of_within hab hb hw rfl hy hz ((Bool.not_eq_true _).mp hedge.symm))
  · refine (finds_blanks (b := "Entonces".toList) (head_of_not_blank rfl)).bind ?_
    refine (finds_keyword (a := "Entonces".toList) (b := []) rfl).bind ?_
    exact Finds.bind (d := ⟨some 's', []⟩) rfl (finds_pure (text_append _ _) _)

/-! ### The header of a counting loop -/

/-- The clause that gives the step of a counting loop. -/
def stepClause : Pattern Text := do
  blanks; keyword "con"; blanks; keyword "paso"; blanks
  let step ← few anything
  return step.text

/-- The first value of a counter ends at the first `Hasta`, and it holds none. -/
theorem finds_first {β : Type} (e : Operand) {q : Piece → Pattern β} {u : Text}
    {before : Option Char} {x : β} {d : Cursor} (hu : ∀ k ∈ u.head?, Text.isBlank k = false)
    (h : Finds (q ⟨e.text ++ (" Hasta ".toList ++ u), e.text.length⟩) ⟨some ' ', u⟩ x d) :
    Finds (do
        let first ← few anything
        blanks; keyword "hasta"; blanks
        q first)
      ⟨before, e.text ++ (" Hasta ".toList ++ u)⟩ x d := by
  have hw : IsKeyword "hasta" := by decide
  refine Finds.few (t := e.text) (u := " Hasta ".toList ++ u) rfl e.nonempty
    (fun a b hab _ hb => ?_) ?_
  · refine List.eq_nil_iff_forall_not_mem.mpr fun x hx => ?_
    obtain ⟨y, hy, hx⟩ := mem_bind.mp hx
    obtain ⟨z, hz, hx⟩ := mem_bind.mp hx
    obtain ⟨v, hv, -⟩ := mem_bind.mp hx
    exact e.free (keyword "hasta") (by simp [separators])
      (mentioned_of_within hab hb hw rfl hy hz (head?_any_of_mem_blanks hv))
  · refine (finds_blanks (b := "Hasta ".toList ++ u) (head_of_not_blank rfl)).bind ?_
    refine (finds_keyword (a := "Hasta".toList) (b := ' ' :: u) rfl).bind ?_
    exact (finds_blanks hu).bind h

/-- What follows the last value of a counter starts with a blank and a letter that is not a `p`. -/
private theorem stepText_eq (step : Option Operand) :
    ∃ k rest, stepText step = ' ' :: k :: rest ∧ Text.isBlank k = false ∧
      Text.foldKeyword k ≠ 'p' := by
  cases step with
  | none => exact ⟨'H', _, rfl, by decide, by decide⟩
  | some s => exact ⟨'C', _, rfl, by decide, by decide⟩

private theorem stepText_eq_append (step : Option Operand) :
    ∃ y, stepText step = y ++ " Hacer".toList := by
  cases step with
  | none => exact ⟨[], rfl⟩
  | some s => exact ⟨" Con Paso ".toList ++ s.text, (List.append_assoc _ _ _).symm⟩

/-- No step is given inside the last value of a counter. -/
private theorem stepClause_eq_nil {e : Operand} {step : Option Operand} {a b : Text}
    (hab : e.text = a ++ b) (hb : b ≠ []) {c : Cursor} (hc : c.rest = b ++ stepText step) :
    stepClause c = [] := by
  have hcon : IsKeyword "con" := by decide
  have hpaso : IsKeyword "paso" := by decide
  obtain ⟨k, rest, hstep, hk, hp⟩ := stepText_eq step
  rw [hstep] at hc
  refine List.eq_nil_iff_forall_not_mem.mpr fun x hx => ?_
  obtain ⟨y₁, hy₁, hx⟩ := mem_bind.mp hx
  obtain ⟨z₁, hz₁, hx⟩ := mem_bind.mp hx
  obtain ⟨y₂, hy₂, hx⟩ := mem_bind.mp hx
  obtain ⟨z₂, hz₂, hx⟩ := mem_bind.mp hx
  obtain ⟨y₃, hy₃, -⟩ := mem_bind.mp hx
  obtain ⟨bl, kw, u, hbl, hblank, hkw, rfl, hu⟩ := exists_keyword_within hab hb hcon hc hy₁ hz₁
  cases u with
  | nil =>
    -- the second word would have to be what follows the expression
    obtain ⟨bl', r, hbl', hr, hblank', rfl⟩ := mem_blanks.mp hy₂
    obtain ⟨kw', v, hv, hkw', rfl⟩ := mem_keyword.mp hz₂
    obtain ⟨l, bl', rfl⟩ := List.exists_cons_of_ne_nil hbl'
    obtain ⟨m, kw', rfl⟩ := List.exists_cons_of_ne_nil (hpaso.ne_nil hkw')
    obtain ⟨-, hrest⟩ := List.cons.inj (hu.symm.trans hr)
    cases bl' with
    | nil =>
      obtain ⟨rfl, -⟩ := List.cons.inj (hrest.trans hv)
      exact hp (List.cons.inj hkw').1
    | cons m' bl' =>
      obtain ⟨rfl, -⟩ := List.cons.inj hrest
      rw [hblank' k (by simp)] at hk
      cases hk
  | cons l u =>
    -- both words stand in the expression, which may not mention them together
    have hab' : e.text = (a ++ bl ++ kw) ++ (l :: u) := by
      rw [hab]
      simp only [List.append_assoc]
    obtain ⟨bl', kw', u', hbl', hblank', hkw', hu', hv⟩ :=
      exists_keyword_within hab' (List.cons_ne_nil _ _) hpaso hu hy₂ hz₂
    refine e.free (do keyword "con"; blanks; keyword "paso") (by simp [separators]) ?_
    rw [hab, hu', ← List.append_assoc]
    have hend := head?_any_of_mem_blanks hy₃
    rw [hv] at hend
    refine mentioned_of_mem (mem_bind.mpr ⟨_, mem_keyword.mpr ⟨kw, _, rfl, hkw, rfl⟩,
      mem_bind.mpr ⟨_, mem_blanks.mpr ⟨bl', _, hbl', rfl, hblank', rfl⟩,
        mem_keyword.mpr ⟨kw', u', rfl, hkw', rfl⟩⟩⟩)
      (any_getLast?_append hbl hblank) ?_ ?_ (head?_any_of_append hend)
    · exact any_head? (hcon.ne_nil hkw) (isWordChar_of_map_foldKeyword hkw hcon.letters)
    · exact any_getLast? (hpaso.ne_nil hkw') (isWordChar_of_map_foldKeyword hkw' hpaso.letters)

/-- The last value of a counter and the step, up to `Hacer`. -/
private theorem finds_last (e : Operand) (step : Option Operand) (counter first : Text)
    (before : Option Char) :
    Finds (do
        let last ← few anything
        let step ← optional stepClause
        Shape.header
        return (⟨counter, first, last.text, step⟩ : Shape.Counting))
      ⟨before, e.text ++ stepText step⟩ ⟨counter, first, e.text, step.map Operand.text⟩
      ⟨some 'r', []⟩ := by
  refine Finds.few (t := e.text) (u := stepText step) rfl e.nonempty (fun a b hab _ hb => ?_) ?_
  · have hheader : Shape.header (Cursor.past a ⟨before, e.text ++ stepText step⟩
        (b ++ stepText step)) = [] := by
      obtain ⟨k, hk, hblank⟩ := Operand.exists_not_blank hab hb
      obtain ⟨y, hy⟩ := stepText_eq_append step
      refine header_eq_nil (y := b ++ y) ?_ ⟨k, List.mem_append_left _ hk, hblank⟩
      rw [List.append_assoc, ← hy]
      rfl
    -- inside the expression, neither a step nor the end of the header can follow
    rw [optional_bind, bind_eq_nil_iff.mpr, List.nil_append]
    · refine bind_eq_nil_iff.mpr fun y hy => ?_
      rw [hheader] at hy
      cases hy
    · intro y hy
      rw [stepClause_eq_nil hab hb rfl] at hy
      cases hy
  · cases step with
    | none =>
      have hnone : stepClause (Cursor.past e.text ⟨before, e.text ++ stepText none⟩
          (stepText none)) = [] := rfl
      refine Finds.optional_none (bind_eq_nil_iff.mpr ?_) ((finds_header _).bind (finds_pure ?_ _))
      · rw [hnone]
        nofun
      · rw [text_append]
        rfl
    | some s =>
      refine Finds.optional ?_
      simp only [stepClause, bind_assoc, pure_bind]
      refine (finds_blanks (b := "Con Paso ".toList ++ _) (head_of_not_blank rfl)).bind ?_
      refine (finds_keyword (a := "Con".toList) (b := " Paso ".toList ++ _) rfl).bind ?_
      refine (finds_blanks (b := "Paso ".toList ++ _) (head_of_not_blank rfl)).bind ?_
      refine (finds_keyword (a := "Paso".toList) (b := ' ' :: _) rfl).bind ?_
      refine (finds_blanks (s.head _)).bind ?_
      refine Finds.few (t := s.text) (u := " Hacer".toList) rfl s.nonempty
        (fun a b hab _ hb => ?_) ?_
      · refine bind_eq_nil_iff.mpr fun y hy => ?_
        rw [header_eq_nil (y := b) rfl (Operand.exists_not_blank hab hb)] at hy
        cases hy
      · refine (finds_header _).bind (finds_pure ?_ _)
        rw [text_append, text_append]
        rfl

/-! ### What the headers say -/

/-- The header of a loop with a condition is found, with its condition. -/
theorem find?_whileLoop (e : Operand) : Shape.whileLoop.find? (whileText e) = some e.text :=
  (finds_headed (w := "Mientras".toList) rfl e).find?

/-- The header of a choice is found, with what is to be chosen by. -/
theorem find?_choice (e : Operand) : Shape.choice.find? (choiceText e) = some e.text :=
  (finds_headed (w := "Segun".toList) rfl e).find?

/-- The header of a conditional is found, with its condition. -/
theorem find?_conditional (e : Operand) :
    Shape.conditional.find? (conditionalText e) = some e.text := by
  refine Finds.find? (d := ⟨some 's', []⟩) ?_
  refine (finds_keyword (a := "Si".toList) (b := ' ' :: _) rfl).bind ?_
  exact (finds_blanks (e.head _)).bind (finds_thenClause e _)

/-- The header of a further clause is found, with its condition. -/
theorem find?_chained (e : Operand) : Shape.chained.find? (chainedText e) = some e.text := by
  refine Finds.find? (d := ⟨some 's', []⟩) ?_
  refine (finds_keyword (a := "SiNo".toList) (b := " Si ".toList ++ _) rfl).bind ?_
  refine (finds_blanks (b := "Si ".toList ++ _) (head_of_not_blank rfl)).bind ?_
  refine (finds_keyword (a := "Si".toList) (b := ' ' :: _) rfl).bind ?_
  exact (finds_blanks (e.head _)).bind (finds_thenClause e _)

/-- The counter of a loop does not start with a blank. -/
theorem Counter.head (v : Counter) (u : Text) :
    ∀ k ∈ (v.text ++ u).head?, Text.isBlank k = false := by
  obtain ⟨c, rest, hc⟩ := List.exists_cons_of_ne_nil v.nonempty
  have hword := v.word c (by rw [hc]; exact List.mem_cons_self)
  rw [hc]
  refine head_of_not_blank ((Bool.not_eq_true _).mp fun hblank => ?_)
  rw [Text.isWordChar_eq_false_of_isBlank hblank] at hword
  cases hword

/-- The arrow is found in front of a blank. -/
theorem finds_arrow (before : Option Char) (u : Text) :
    Finds (either (signs "<-") (signs "=")) ⟨before, "<- ".toList ++ u⟩ () ⟨some '-', ' ' :: u⟩ :=
  Finds.either (p := signs "<-") rfl

/-- The header of a counting loop is found, with its counter, its bounds and its step. -/
theorem find?_forLoop (v : Counter) (a b : Operand) (step : Option Operand) :
    Shape.forLoop.find? (forText v a b step) =
      some ⟨v.text, a.text, b.text, step.map Operand.text⟩ := by
  refine Finds.find? (d := ⟨some 'r', []⟩) ?_
  refine (finds_keyword (a := "Para".toList) (b := ' ' :: _) rfl).bind ?_
  refine (finds_blanks (v.head _)).bind ?_
  refine (finds_run (a := v.text) (b := " <- ".toList ++ _) rfl v.nonempty v.word ?_).bind ?_
  · rintro k ⟨⟩
    rfl
  refine (finds_someBlanks (b := "<- ".toList ++ _) (head_of_not_blank rfl)).bind ?_
  refine (finds_arrow _ _).bind ?_
  refine (finds_someBlanks (a.head _)).bind ?_
  refine finds_first a (b.head _) ?_
  rw [text_append, text_append]
  exact finds_last b step v.text a.text _

end Pseudocode.Structured
