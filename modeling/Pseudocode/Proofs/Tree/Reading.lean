import Pseudocode.Proofs.Tree.Basic

/-!
# What the lines of a structured program say

The text of a canonical header reads as the header it is (`read_whileText` and the others), with
its expressions in place and the rest left to the searches for its block; and the searches see it
in the role of a header of its family and in no other (`plays_while` and the others). A line that
is plain to the searches is none of the headers, and so what it says does not depend on the lines
around it (`read_plain`).

The patterns of the searches and the patterns of the headers differ. The searches take any line that
starts with the word of a family and a blank for a header, and so a plain line, which is not one of
those, is no header either; for a conditional, the word `Entonces` has to be found again by the
looser pattern of the search (`fits_of_mem_conditional`).
-/

namespace Pseudocode.Structured

open Pattern

/-- A mark that is seen as the mark that it is, and as nothing else. -/
def Sole (l : Line) (m : Mark) : Prop := Plays l (.mark m)

/-! ### The roles of headers -/

/-- A case label ends with a colon. -/
private theorem getLast?_of_labelLine {t label : Text} (h : Cases.labelLine.find? t = some label) :
    t.getLast? = some ':' := by
  obtain ⟨x, hx, -⟩ := exists_mem_of_find? h
  obtain ⟨y, hy, hx⟩ := mem_bind.mp hx
  obtain ⟨a, b, -, hab, -, rfl⟩ := mem_run.mp hy
  obtain ⟨z, hz, hx⟩ := mem_bind.mp hx
  obtain ⟨w, hw, -⟩ := mem_bind.mp hx
  obtain ⟨hnil, -⟩ := mem_finish.mp hw
  obtain ⟨rest, hrest, hz⟩ := mem_signs hz
  have hb : b = [':'] := by
    rw [show b = [':'] ++ rest from hrest, ← hz, hnil]
    rfl
  rw [show t = a ++ b from hab, hb, List.getLast?_concat]

/-- A text that ends with another character than a colon is no case label. -/
private theorem markOf?_eq_none {n : Nat} {t : Text} {k : Char}
    (ho : Cases.otherwiseLine.fits t = false)
    (ht : t.getLast? = some k) (hk : k ≠ ':') : Cases.markOf? ⟨n, t⟩ = none := by
  rw [Cases.markOf?, if_neg (by rw [ho]; exact Bool.false_ne_true), Option.map_eq_none_iff]
  cases h : Cases.labelLine.find? t with
  | none => rfl
  | some label => exact absurd (Option.some.inj (ht.symm.trans (getLast?_of_labelLine h))) hk

private theorem getLast?_append_of {t u : Text} {k : Char} (h : u.getLast? = some k) :
    (t ++ u).getLast? = some k := by
  rw [List.getLast?_append, h]
  rfl

/-- The header of a loop with a condition opens such a loop and nothing else. -/
theorem plays_while (n : Nat) (e : Operand) : Plays ⟨n, whileText e⟩ (.opens .mientras) where
  opens f := by cases f <;> rfl
  closes f := by cases f <;> rfl
  clause _ := rfl
  mark := markOf?_eq_none (k := 'r') rfl (getLast?_append_of (getLast?_append_of rfl)) (by decide)

/-- The header of a choice opens a choice and nothing else. -/
theorem plays_choice (n : Nat) (e : Operand) : Plays ⟨n, choiceText e⟩ (.opens .segun) where
  opens f := by cases f <;> rfl
  closes f := by cases f <;> rfl
  clause _ := rfl
  mark := markOf?_eq_none (k := 'r') rfl (getLast?_append_of (getLast?_append_of rfl)) (by decide)

private theorem getLast?_stepText (step : Option Operand) :
    (stepText step).getLast? = some 'r' := by
  cases step with
  | none => rfl
  | some s => exact getLast?_append_of (getLast?_append_of rfl)

/-- The header of a counting loop opens such a loop and nothing else. -/
theorem plays_for (n : Nat) (v : Counter) (a b : Operand) (step : Option Operand) :
    Plays ⟨n, forText v a b step⟩ (.opens .para) where
  opens f := by cases f <;> rfl
  closes f := by cases f <;> rfl
  clause _ := rfl
  mark := markOf?_eq_none (k := 'r') rfl
    (getLast?_append_of (getLast?_append_of (getLast?_append_of (getLast?_append_of
      (getLast?_append_of (getLast?_append_of (getLast?_stepText step))))))) (by decide)

/-- A condition between `Si` and `Entonces` opens a conditional. -/
private theorem fits_conditionalText (e : Operand) :
    (Family.opening .si).fits (conditionalText e) = true := by
  refine fits_iff.mpr ⟨((), ⟨some 's', []⟩), ?_⟩
  refine mem_bind.mpr ⟨_, mem_keyword.mpr ⟨"Si".toList, _, rfl, rfl, rfl⟩, ?_⟩
  refine mem_bind.mpr ⟨((), ⟨some ' ', e.text ++ " Entonces".toList⟩),
    List.mem_singleton.mpr rfl, ?_⟩
  refine mem_bind.mpr ⟨_, mem_runOrNone.mpr ⟨e.text ++ [' '], "Entonces".toList, ?_, fun _ _ => rfl,
    rfl⟩, ?_⟩
  · exact (List.append_assoc e.text [' '] "Entonces".toList).symm
  refine mem_bind.mpr ⟨_, mem_edge.mpr ⟨?_, rfl⟩, ?_⟩
  · simp only [Cursor.past, List.getLast?_concat, Option.some_or]
    decide
  refine mem_bind.mpr ⟨_, mem_keyword.mpr ⟨"Entonces".toList, [], rfl, rfl, rfl⟩, ?_⟩
  exact mem_edge.mpr ⟨Bool.false_ne_true.symm, rfl⟩

/-- The header of a conditional opens a conditional and nothing else. -/
theorem plays_conditional (n : Nat) (e : Operand) :
    Plays ⟨n, conditionalText e⟩ (.opens .si) where
  opens f := by
    cases f with
    | si => exact fits_conditionalText e
    | _ => rfl
  closes f := by cases f <;> rfl
  clause _ := rfl
  mark := markOf?_eq_none (k := 's') rfl (getLast?_append_of (getLast?_append_of rfl)) (by decide)

/-- The header of a further clause is a clause with a condition and nothing else. -/
theorem plays_chained (n : Nat) (e : Operand) :
    Plays ⟨n, chainedText e⟩ (.clause true) where
  opens f := by cases f <;> rfl
  closes f := by cases f <;> rfl
  clause _ := rfl
  mark := markOf?_eq_none (k := 's') rfl (getLast?_append_of (getLast?_append_of rfl)) (by decide)

/-- `FinMientras`, `FinPara`, `FinSi` and `FinSegun`. -/
def closeText : Family → Text
  | .mientras => "FinMientras".toList
  | .para => "FinPara".toList
  | .si => "FinSi".toList
  | .segun => "FinSegun".toList

/-- The line that closes a block closes blocks of its family and nothing else. -/
theorem plays_close (n : Nat) (f : Family) : Plays ⟨n, closeText f⟩ (.closes f) := by
  cases f <;> exact ⟨fun g => by cases g <;> rfl, fun g => by cases g <;> rfl, fun _ => rfl, rfl⟩

/-- The line `SiNo` is a clause without a condition and nothing else. -/
theorem plays_otherwise (n : Nat) : Plays ⟨n, "SiNo".toList⟩ (.clause false) where
  opens f := by cases f <;> rfl
  closes f := by cases f <;> rfl
  clause _ := rfl
  mark := rfl

/-- The line `De Otro Modo:` marks the default group and nothing else. -/
theorem plays_default (n : Nat) : Plays ⟨n, "De Otro Modo:".toList⟩ (.mark .otherwise) where
  opens f := by cases f <;> rfl
  closes f := by cases f <;> rfl
  clause _ := rfl
  mark := rfl

/-! ### What lines say -/

/-- The text is none of the statements that are looked for before the headers of blocks. -/
structure Unclaimed (t : Text) : Prop where
  marker : Shape.marker.fits t = false
  declare : Shape.declare.find? t = none
  dimension : Shape.dimension.find? t = none
  input : Shape.input.find? t = none
  output : Shape.output.find? t = none

section Read

variable (lines : List Line) (i : Nat)

/-- The header of a loop with a condition is read as one, with the lines up to its end for a
body. -/
theorem read_whileText (e : Operand) : Action.read lines i (whileText e) =
    .whileLoop e.text ⟨i + 1, Family.mientras.blockEnd lines (i + 1)⟩ := by
  have h : Unclaimed (whileText e) := ⟨rfl, rfl, rfl, rfl, rfl⟩
  simp only [Action.read, h.marker, h.declare, h.dimension, h.input, h.output, find?_whileLoop,
    if_neg Bool.false_ne_true, Action.readWhile, e.trimmed.trim_eq]

/-- The header of a counting loop is read as one, with the lines up to its end for a body. -/
theorem read_forText (v : Counter) (a b : Operand) (step : Option Operand) :
    Action.read lines i (forText v a b step) =
      .forLoop v.text a.text b.text (step.map Operand.text)
        ⟨i + 1, Family.para.blockEnd lines (i + 1)⟩ := by
  have h : Unclaimed (forText v a b step) := ⟨rfl, rfl, rfl, rfl, rfl⟩
  have hwhile : Shape.whileLoop.find? (forText v a b step) = none := rfl
  have htrim : (step.map Operand.text).map Text.trim = step.map Operand.text := by
    cases step with
    | none => rfl
    | some s => exact congrArg some s.trimmed.trim_eq
  simp only [Action.read, h.marker, h.declare, h.dimension, h.input, h.output, hwhile,
    find?_forLoop, if_neg Bool.false_ne_true, Action.readFor, a.trimmed.trim_eq,
    b.trimmed.trim_eq, htrim]

/-- The header of a choice is read as one, with the groups behind it. -/
theorem read_choiceText (e : Operand) : Action.read lines i (choiceText e) =
    .choice e.text (.ofLines lines (i + 1)) := by
  have h : Unclaimed (choiceText e) := ⟨rfl, rfl, rfl, rfl, rfl⟩
  have hwhile : Shape.whileLoop.find? (choiceText e) = none := rfl
  have hfor : Shape.forLoop.find? (choiceText e) = none := rfl
  simp only [Action.read, h.marker, h.declare, h.dimension, h.input, h.output, hwhile, hfor,
    find?_choice, if_neg Bool.false_ne_true, e.trimmed.trim_eq]

/-- The header of a conditional is read as one, with the clauses behind it. -/
theorem read_conditionalText (e : Operand) : Action.read lines i (conditionalText e) =
    .conditional e.text (.ofLines lines (i + 1)) false := by
  have h : Unclaimed (conditionalText e) := ⟨rfl, rfl, rfl, rfl, rfl⟩
  have hwhile : Shape.whileLoop.find? (conditionalText e) = none := rfl
  have hfor : Shape.forLoop.find? (conditionalText e) = none := rfl
  have hchoice : Shape.choice.find? (conditionalText e) = none := rfl
  simp only [Action.read, h.marker, h.declare, h.dimension, h.input, h.output, hwhile, hfor,
    hchoice, find?_conditional, if_neg Bool.false_ne_true, e.trimmed.trim_eq]

/-- The header of a further clause is read as a conditional that is chained. -/
theorem read_chainedText (e : Operand) : Action.read lines i (chainedText e) =
    .conditional e.text (.ofLines lines (i + 1)) true := by
  have h : Unclaimed (chainedText e) := ⟨rfl, rfl, rfl, rfl, rfl⟩
  have hwhile : Shape.whileLoop.find? (chainedText e) = none := rfl
  have hfor : Shape.forLoop.find? (chainedText e) = none := rfl
  have hchoice : Shape.choice.find? (chainedText e) = none := rfl
  have hconditional : Shape.conditional.find? (chainedText e) = none := rfl
  simp only [Action.read, h.marker, h.declare, h.dimension, h.input, h.output, hwhile, hfor,
    hchoice, hconditional, find?_chained, if_neg Bool.false_ne_true, e.trimmed.trim_eq]

end Read

/-- The patterns of headers ask for a blank behind their keyword. -/
theorem exists_mem_blank {c : Cursor} {y : Unit × Cursor} (h : y ∈ blanks c) :
    ∃ k rest, c.rest = k :: rest ∧ Text.isBlank k = true ∧ blank c = [((), ⟨some k, rest⟩)] := by
  obtain ⟨a, b, hne, hab, ha, -⟩ := mem_blanks.mp h
  obtain ⟨k, a, rfl⟩ := List.exists_cons_of_ne_nil hne
  have hk := ha k List.mem_cons_self
  refine ⟨k, a ++ b, hab, hk, ?_⟩
  rw [blank, hab]
  exact if_pos hk

/-- What is headed by a word and blanks is headed by the word and a blank. -/
theorem fits_of_mem_headed {α : Type} {word : String} {q : Pattern α} {t : Text} {x : α × Cursor}
    (h : x ∈ (do keyword word; blanks; q : Pattern α) (.start t)) :
    (do keyword word; blank : Pattern Unit).fits t = true := by
  obtain ⟨y, hy, h⟩ := mem_bind.mp h
  obtain ⟨z, hz, -⟩ := mem_bind.mp h
  obtain ⟨k, rest, -, -, hblank⟩ := exists_mem_blank hz
  refine fits_iff.mpr ⟨((), ⟨some k, rest⟩), mem_bind.mpr ⟨y, hy, ?_⟩⟩
  rw [hblank]
  exact List.mem_singleton.mpr rfl

/-- What reads as a conditional opens a block. -/
theorem fits_of_mem_conditional {t : Text} {x : Text × Cursor}
    (h : x ∈ Shape.conditional (.start t)) : (Family.opening .si).fits t = true := by
  have hw : IsKeyword "entonces" := by decide
  obtain ⟨y, hy, h⟩ := mem_bind.mp h
  obtain ⟨y₁, hy₁, h⟩ := mem_bind.mp h
  obtain ⟨y₂, hy₂, h⟩ := mem_bind.mp h
  obtain ⟨y₃, hy₃, h⟩ := mem_bind.mp h
  obtain ⟨y₄, hy₄, h⟩ := mem_bind.mp h
  obtain ⟨y₅, hy₅, -⟩ := mem_bind.mp h
  obtain ⟨hedge, -⟩ := mem_edge.mp hy₅
  rw [hw.before hy₄] at hedge
  obtain ⟨k, rest, hrest, -, hblank⟩ := exists_mem_blank hy₁
  obtain ⟨bl, r, hne, hr, -, rfl⟩ := mem_blanks.mp hy₁
  obtain ⟨a, b, -, hab, -, rfl⟩ := mem_few.mp hy₂
  obtain ⟨bl', r', hne', hr', hblanks', rfl⟩ := mem_blanks.mp hy₃
  obtain ⟨kw, z, hz, hkw, rfl⟩ := mem_keyword.mp hy₄
  obtain ⟨l, bl, rfl⟩ := List.exists_cons_of_ne_nil hne
  have hletters := isWordChar_of_map_foldKeyword hkw hw.letters
  -- the run over anything ends where the last blanks before the keyword do
  have hsplit : rest = (bl ++ a ++ bl') ++ (kw ++ z) := by
    rw [hrest, List.cons_append] at hr
    rw [(List.cons.inj hr).2, show r = a ++ b from hab, show b = bl' ++ r' from hr',
      show r' = kw ++ z from hz]
    simp only [List.append_assoc]
  let c : Cursor := .past (bl ++ a ++ bl') ⟨some k, rest⟩ (kw ++ z)
  refine fits_iff.mpr ⟨((), c.past kw z), mem_bind.mpr ⟨y, hy, ?_⟩⟩
  refine mem_bind.mpr ⟨((), ⟨some k, rest⟩), by rw [hblank]; exact List.mem_singleton.mpr rfl, ?_⟩
  refine mem_bind.mpr ⟨_,
    mem_runOrNone.mpr ⟨bl ++ a ++ bl', kw ++ z, hsplit, fun _ _ => rfl, rfl⟩, ?_⟩
  refine mem_bind.mpr ⟨_, mem_edge.mpr ⟨?_, rfl⟩, ?_⟩
  · have hbefore : ((bl ++ a ++ bl').getLast?.or (some k)).any Text.isWordChar = false := by
      rw [List.getLast?_append, List.getLast?_eq_some_getLast hne']
      exact Text.isWordChar_eq_false_of_isBlank (hblanks' _ (List.getLast_mem hne'))
    have hafter : (kw ++ z).head?.any Text.isWordChar = true := any_head? (hw.ne_nil hkw) hletters
    exact hbefore ▸ hafter ▸ Bool.false_ne_true
  refine mem_bind.mpr ⟨_, mem_keyword.mpr ⟨kw, z, rfl, hkw, rfl⟩, mem_edge.mpr ⟨?_, rfl⟩⟩
  have hbefore : (kw.getLast?.or ((bl ++ a ++ bl').getLast?.or (some k))).any Text.isWordChar =
      true := any_getLast? (hw.ne_nil hkw) hletters
  exact hbefore ▸ hedge

/-- What reads as a clause with a condition is a clause with a condition. -/
theorem fits_of_mem_chained {t : Text} {x : Text × Cursor}
    (h : x ∈ Shape.chained (.start t)) : Branches.elseIfLine.fits t = true := by
  obtain ⟨y, hy, h⟩ := mem_bind.mp h
  obtain ⟨y₁, hy₁, h⟩ := mem_bind.mp h
  obtain ⟨y₂, hy₂, h⟩ := mem_bind.mp h
  obtain ⟨y₃, hy₃, -⟩ := mem_bind.mp h
  obtain ⟨k, rest, -, -, hblank⟩ := exists_mem_blank hy₃
  refine fits_iff.mpr ⟨((), ⟨some k, rest⟩), mem_bind.mpr ⟨y, hy, mem_bind.mpr ⟨y₁, hy₁, ?_⟩⟩⟩
  refine mem_bind.mpr ⟨y₂, hy₂, ?_⟩
  rw [hblank]
  exact List.mem_singleton.mpr rfl

/-- A pattern finds nothing in a text that lacks what all its ways need. -/
private theorem find?_eq_none_of_fits {α : Type} {p : Pattern α} {q : Pattern Unit} {t : Text}
    (hq : q.fits t = false) (h : ∀ x ∈ p (.start t), q.fits t = true) : p.find? t = none := by
  refine find?_eq_none_iff.mpr (List.eq_nil_iff_forall_not_mem.mpr fun x hx => ?_)
  rw [h x hx] at hq
  cases hq

/-- **A plain line says what it says by itself**: it is none of the headers, so the lines around it
do not matter. -/
theorem read_plain {l : Line} (h : Plays l .plain) (lines : List Line) (i : Nat) :
    Action.read lines i l.text = simpleAction l.text := by
  have hwhile : Shape.whileLoop.find? l.text = none :=
    find?_eq_none_of_fits (h.opens .mientras) fun _ => fits_of_mem_headed
  have hfor : Shape.forLoop.find? l.text = none :=
    find?_eq_none_of_fits (h.opens .para) fun _ => fits_of_mem_headed
  have hchoice : Shape.choice.find? l.text = none :=
    find?_eq_none_of_fits (h.opens .segun) fun _ => fits_of_mem_headed
  have hconditional : Shape.conditional.find? l.text = none :=
    find?_eq_none_of_fits (h.opens .si) fun _ => fits_of_mem_conditional
  have hchained : Shape.chained.find? l.text = none := by
    refine find?_eq_none_of_fits ?_ fun _ => fits_of_mem_chained
    have hclause : Branches.clauseOf? 0 l = none := h.clause 0
    simp only [Branches.clauseOf?] at hclause
    split at hclause
    · cases hclause
    · split at hclause
      · cases hclause
      · next hne => exact Bool.eq_false_iff.mpr hne
  simp only [Action.read, hwhile, hfor, hchoice, hconditional, hchained]
  rfl

/-- A clause without a condition does not read as one that has a condition. -/
theorem find?_chained_eq_none {t : Text} (h : Branches.elseLine.fits t = true) :
    Shape.chained.find? t = none := by
  obtain ⟨x, hx⟩ := fits_iff.mp h
  obtain ⟨y, hy, hx⟩ := mem_bind.mp hx
  obtain ⟨kw, z, hz, hkw, rfl⟩ := mem_keyword.mp hy
  obtain ⟨hnil, -⟩ := mem_finish.mp hx
  refine find?_eq_none_iff.mpr (List.eq_nil_iff_forall_not_mem.mpr fun x hx => ?_)
  obtain ⟨y, hy, hx⟩ := mem_bind.mp hx
  obtain ⟨kw', z', hz', hkw', rfl⟩ := mem_keyword.mp hy
  obtain ⟨y, hy, -⟩ := mem_bind.mp hx
  obtain ⟨bl, r, hne, hbl, -, -⟩ := mem_blanks.mp hy
  -- the word fills the whole line, so nothing is left for blanks behind it
  have hlength : kw.length = kw'.length := by
    rw [← List.length_map (f := Text.foldKeyword), hkw, ← hkw', List.length_map]
  have hrest : z' = z := (List.append_inj (hz'.symm.trans hz) hlength.symm).2
  have hempty : bl ++ r = [] := hbl.symm.trans (hrest.trans hnil)
  exact hne (List.append_eq_nil_iff.mp hempty).1

/-- Only what reads as a clause with a condition is run as one. -/
private theorem isChained_read {l : Line} (h : Shape.chained.find? l.text = none)
    (lines : List Line)
    (i : Nat) : Exec.isChained (some ⟨l, Action.read lines i l.text⟩) = false := by
  unfold Action.read
  split
  · rfl
  split
  · unfold Action.readDeclare
    split <;> rfl
  split
  · unfold Action.readDimension
    split <;> rfl
  split
  · rfl
  split
  · rfl
  split
  · rfl
  split
  · rfl
  split
  · rfl
  split
  · rfl
  rw [h]
  simp only
  split
  · unfold Action.readAssign
    split <;> rfl
  · rfl

/-- A clause without a condition is not chained. -/
theorem isChained_otherwise {l : Line} (h : Plays l (.clause false)) (lines : List Line) (i : Nat) :
    Exec.isChained (some ⟨l, Action.read lines i l.text⟩) = false := by
  refine isChained_read (find?_chained_eq_none ?_) lines i
  have hclause : Branches.clauseOf? 0 l = some ⟨false, 0⟩ := h.clause 0
  simp only [Branches.clauseOf?] at hclause
  split at hclause
  · assumption
  · split at hclause <;> cases hclause

end Pseudocode.Structured
