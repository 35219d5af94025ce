import Pseudocode.Program
import Pseudocode.Proofs.Tree.Reading

/-!
# Lines that open blocks and the statements they are

Two readers look at a line. The search for the end of a block asks whether the line opens a block of
a family (`Family.opens`), and the search for the clauses of a conditional whether it is a clause;
the reader of statements asks what the line does (`Action.read`). This module compares their answers
(`openers_agree`).

* For `Mientras` and `Segun` they are the same: the word and a blank behind it are enough for both,
  since a line that counts does not end in a blank, so that something is left for the condition.
* For `Para`, `Si` and `SiNo Si` the first reader asks for less than the second. Every statement of
  these kinds opens a block, or is a clause; but a line may open a block, or be a clause, without
  having all that the statement needs. **Such a line is an assignment or does nothing**, so the
  block that it seems to open has no statement (`opens_para_of_skip`).

The order in which the reader of statements tries its shapes plays no part in this: a line that
starts with the word of a header and a blank starts with no other word (`Heads.isPrefix`), so no
other shape can claim it.
-/

namespace Pseudocode

open Pattern Structured

/-! ### How lines end -/

namespace Line

private theorem getLast?_blankSemicolons (t : Text) :
    (blankSemicolons t).getLast? = t.getLast? := by
  fun_induction blankSemicolons t with
  | case1 => rfl
  | case2 rest word behind h _ ih =>
    obtain ⟨hrest, hword⟩ := keyword?_eq_some_iff.mp h
    have hne : word ≠ [] := by
      rintro rfl
      cases hword
    rw [← List.takeWhile_append_dropWhile (p := Text.isBlank) (l := rest), hrest]
    simp only [List.getLast?_append, ← List.cons_append, ih, List.getLast?_cons,
      List.getLast?_eq_some_getLast hne]
    cases behind.getLast? <;> simp
  | case3 rest _ ih => simp only [List.getLast?_cons, ih]
  | case4 c rest _ ih => simp only [List.getLast?_cons, ih]

/-- What counts of a line does not end in a blank. -/
private theorem last_prepare (raw : Text) {k : Char} (h : (prepare raw).getLast? = some k) :
    Text.isBlank k = false := by
  rw [prepare, getLast?_blankSemicolons] at h
  exact Text.last_trimEnd h

private theorem exists_prepare_of_mem {n : Nat} {raws : List Text} {l : Line}
    (h : l ∈ numberFrom n raws) :
    ∃ raw, l.text = prepare raw ∧ l.text ≠ [] := by
  induction raws generalizing n with
  | nil => cases h
  | cons raw rest ih =>
    rw [numberFrom] at h
    split at h
    · exact ih h
    · next hne =>
      rcases List.mem_cons.mp h with rfl | h
      · exact ⟨raw, rfl, hne⟩
      · exact ih h

/-- A line that counts ends with a character that is not blank. -/
private theorem exists_last_of_mem {source : Text} {l : Line} (h : l ∈ ofSource source) :
    ∃ k, l.text.getLast? = some k ∧ Text.isBlank k = false := by
  obtain ⟨raw, hraw, hne⟩ := exists_prepare_of_mem h
  have hlast := List.getLast?_eq_some_getLast hne
  exact ⟨_, hlast, last_prepare raw (by rw [← hraw, hlast])⟩

end Line

/-! ### Lines that start with a word and a blank -/

/-- The text starts with the word, in whatever case, and a blank behind it. -/
def Heads (word : String) (t : Text) : Prop :=
  ∃ kw k rest, t = kw ++ k :: rest ∧ kw.map Text.foldKeyword = word.toList ∧ Text.isBlank k = true

section Heads

variable {α : Type} {word v : String} {t : Text} {y z : Unit × Cursor}

private theorem mem_blank {c : Cursor} : z ∈ blank c ↔ ∃ k rest, c.rest = k :: rest ∧
    Text.isBlank k = true ∧ z = ((), ⟨some k, rest⟩) := by
  obtain ⟨before, _ | ⟨k, rest⟩⟩ := c
  · exact ⟨nofun, fun ⟨_, _, h, _⟩ => nomatch h⟩
  · simp only [blank]
    constructor
    · intro h
      split at h
      · next hk => exact ⟨k, rest, rfl, hk, List.mem_singleton.mp h⟩
      · cases h
    · rintro ⟨_, _, ⟨⟩, hk, rfl⟩
      rw [if_pos hk]
      exact List.mem_singleton_self _

private theorem heads_of_mem (hy : y ∈ keyword word (.start t)) (hz : z ∈ blank y.2) :
    Heads word t := by
  obtain ⟨kw, behind, ht, hkw, rfl⟩ := mem_keyword.mp hy
  obtain ⟨k, rest, hrest, hk, -⟩ := mem_blank.mp hz
  exact ⟨kw, k, rest, ht.trans (congrArg (kw ++ ·) hrest), hkw, hk⟩

private theorem heads_iff :
    Heads word t ↔ (do keyword word; blank : Pattern Unit).fits t = true := by
  rw [fits_iff]
  constructor
  · rintro ⟨kw, k, rest, rfl, hkw, hk⟩
    exact ⟨_, mem_bind.mpr ⟨_, mem_keyword.mpr ⟨kw, k :: rest, rfl, hkw, rfl⟩,
      mem_blank.mpr ⟨k, rest, rfl, hk, rfl⟩⟩⟩
  · rintro ⟨z, hz⟩
    obtain ⟨y, hy, hz⟩ := mem_bind.mp hz
    exact heads_of_mem hy hz

/-- A keyword at the start of a text that starts with a word and a blank is at most that word: it
cannot go on over the blank. -/
theorem Heads.isPrefix (h : Heads word t) (hv : IsKeyword v) (hy : y ∈ keyword v (.start t)) :
    v.toList <+: word.toList := by
  obtain ⟨kw, k, rest, rfl, hkw, hk⟩ := h
  obtain ⟨kw', rest', ht, hkw', -⟩ := mem_keyword.mp hy
  rw [← hkw, ← hkw']
  refine List.IsPrefix.map _ ?_
  rcases List.append_eq_append_iff.mp (show kw ++ k :: rest = kw' ++ rest' from ht) with
    ⟨more, hmore, hk'⟩ | ⟨more, hmore, -⟩
  · -- the first character beyond the word would be the blank
    cases more with
    | nil => exact ⟨[], by rw [hmore, List.append_nil, List.append_nil]⟩
    | cons m more =>
      obtain ⟨rfl, -⟩ := List.cons.inj hk'
      have hword := isWordChar_of_map_foldKeyword hkw' hv.letters k (by rw [hmore]; simp)
      rw [Text.isWordChar_eq_false_of_isBlank hk] at hword
      cases hword
  · exact ⟨more, hmore.symm⟩

private theorem Heads.find?_eq_none (h : Heads word t) (hv : IsKeyword v)
    (hne : ¬ v.toList <+: word.toList) (q : Unit → Pattern α) :
    (keyword v >>= q).find? t = none := by
  refine find?_eq_none_iff.mpr (List.eq_nil_iff_forall_not_mem.mpr fun x hx => ?_)
  obtain ⟨y, hy, -⟩ := mem_bind.mp hx
  exact hne (h.isPrefix hv hy)

end Heads

/-! ### The words that tell statements apart -/

/-- The words that headers and clauses start with. -/
def headWords : List String := ["mientras", "para", "si", "segun", "sino"]

/-- The words that the statements start with which are looked for before headers. -/
def earlyWords : List String :=
  ["fin", "algoritmo", "proceso", "subproceso", "funcion", "definir", "dimension", "leer",
    "escribir", "imprimir", "mostrar"]

private theorem isKeyword_of_mem : ∀ v ∈ earlyWords ++ headWords, IsKeyword v := by decide

private theorem not_isPrefix_of_mem :
    ∀ v ∈ earlyWords, ∀ w ∈ headWords, ¬ v.toList <+: w.toList := by
  decide

section Claims

variable {word : String} {t : Text} (h : Heads word t) (hw : word ∈ headWords)
include h hw

/-- A line that one of these words heads is not headed by a word that is looked for before them. -/
theorem Heads.not_mem_keyword {v : String} (hv : v ∈ earlyWords) (y : Unit × Cursor) :
    y ∉ keyword v (.start t) := fun hy =>
  not_isPrefix_of_mem v hv word hw
    (h.isPrefix (isKeyword_of_mem v (List.mem_append_left _ hv)) hy)

private theorem Heads.marker_fits : Shape.marker.fits t = false := by
  refine (Bool.not_eq_true _).mp fun hfits => ?_
  obtain ⟨x, hx⟩ := fits_iff.mp hfits
  rw [Shape.marker, optional_bind, List.mem_append] at hx
  rcases hx with hx | hx
  · rw [bind_assoc] at hx
    obtain ⟨y, hy, -⟩ := mem_bind.mp hx
    exact h.not_mem_keyword hw (by decide) y hy
  · obtain ⟨y, hy, -⟩ := mem_bind.mp hx
    simp only [either, List.mem_append] at hy
    rcases hy with hy | hy | hy | hy <;> exact h.not_mem_keyword hw (by decide) y hy

private theorem Heads.output_find? : Shape.output.find? t = none := by
  refine find?_eq_none_iff.mpr (List.eq_nil_iff_forall_not_mem.mpr fun x hx => ?_)
  obtain ⟨y, hy, -⟩ := mem_bind.mp hx
  simp only [either, List.mem_append] at hy
  rcases hy with hy | hy | hy <;> exact h.not_mem_keyword hw (by decide) y hy

/-- None of the statements that are looked for before headers starts with the word of a header. -/
private theorem Heads.unclaimed : Unclaimed t where
  marker := h.marker_fits hw
  declare := h.find?_eq_none (by decide) (not_isPrefix_of_mem _ (by decide) _ hw) _
  dimension := h.find?_eq_none (by decide) (not_isPrefix_of_mem _ (by decide) _ hw) _
  input := h.find?_eq_none (by decide) (not_isPrefix_of_mem _ (by decide) _ hw) _
  output := h.output_find? hw

end Claims

/-! ### What statements open -/

namespace Action

/-- The family of the block that a statement opens. A clause of a conditional opens none. -/
def family? : Action → Option Family
  | whileLoop _ _ => some .mientras
  | forLoop _ _ _ _ _ => some .para
  | conditional _ _ false => some .si
  | choice _ _ => some .segun
  | _ => none

/-- Whether a statement is a clause of a conditional with a condition of its own. -/
def isElseIf : Action → Bool
  | conditional _ _ chained => chained
  | _ => false

/-- Whether a statement is an assignment or does nothing. -/
def isPlain : Action → Bool
  | skip | assign _ _ _ _ => true
  | _ => false

private theorem family?_of_isElseIf {a : Action} (h : a.isElseIf = true) : a.family? = none := by
  cases a with
  | conditional _ _ chained =>
    obtain rfl : chained = true := h
    rfl
  | _ => cases h

private theorem family?_of_isPlain {a : Action} (h : a.isPlain = true) : a.family? = none := by
  cases a with
  | skip | assign _ _ _ _ => rfl
  | _ => cases h

private theorem isElseIf_of_isPlain {a : Action} (h : a.isPlain = true) : a.isElseIf = false := by
  cases a with
  | skip | assign _ _ _ _ => rfl
  | _ => cases h

end Action

namespace Family

/-- The word that the lines of a family start with. -/
def word : Family → String
  | mientras => "mientras"
  | para => "para"
  | si => "si"
  | segun => "segun"

/-- Whether a text has all that the statement of a family needs. -/
def hasStatement : Family → Text → Bool
  | mientras => Shape.whileLoop.fits
  | para => Shape.forLoop.fits
  | si => Shape.conditional.fits
  | segun => Shape.choice.fits

/-- The word of a family heads lines. -/
theorem word_mem (f : Family) : f.word ∈ headWords := by cases f <;> decide

private theorem eq_of_isPrefix {f g : Family} (h : f.word.toList <+: g.word.toList) : f = g := by
  revert h
  cases f <;> cases g <;> decide

private theorem not_sino_isPrefix (f : Family) : ¬ "sino".toList <+: f.word.toList := by
  cases f <;> decide

variable {f g : Family} {t : Text}

/-- A line that opens a block is headed by the word of its family. -/
theorem heads_of_opens {l : Line} (h : f.opens l = true) : Heads f.word l.text := by
  cases f with
  | mientras | para | segun => exact heads_iff.mpr h
  | si =>
    obtain ⟨x, hx⟩ := fits_iff.mp h
    obtain ⟨y, hy, hx⟩ := mem_bind.mp hx
    obtain ⟨z, hz, -⟩ := mem_bind.mp hx
    exact heads_of_mem hy hz

/-- What has all that a statement needs opens a block. -/
private theorem opens_of_hasStatement {l : Line} (h : f.hasStatement l.text = true) :
    f.opens l = true := by
  cases f with
  | mientras | para | segun =>
    obtain ⟨x, hx⟩ := fits_iff.mp h
    exact fits_of_mem_headed hx
  | si =>
    obtain ⟨x, hx⟩ := fits_iff.mp h
    exact fits_of_mem_conditional hx

private theorem exists_mem_keyword (h : f.hasStatement t = true) :
    ∃ y, y ∈ keyword f.word (.start t) := by
  cases f with
  | mientras | para | si | segun =>
    obtain ⟨x, hx⟩ := fits_iff.mp h
    obtain ⟨y, hy, -⟩ := mem_bind.mp hx
    exact ⟨y, hy⟩

/-- A text that starts with the word of a family has no statement of another one. -/
private theorem eq_of_hasStatement (hheads : Heads f.word t) (h : g.hasStatement t = true) :
    g = f := by
  obtain ⟨y, hy⟩ := exists_mem_keyword h
  exact eq_of_isPrefix
    (hheads.isPrefix (isKeyword_of_mem _ (List.mem_append_right _ g.word_mem)) hy)

end Family

/-! ### What the reader of statements makes of a line -/

/-- What a text can be read as, with regard to blocks. -/
inductive Reads (t : Text) (a : Action) : Prop where
  | early : ¬ Unclaimed t → a.family? = none → a.isElseIf = false → Reads t a
  | block (f : Family) : f.hasStatement t = true → a.family? = some f → Reads t a
  | elseIf : (∀ f : Family, f.hasStatement t = false) → Shape.chained.fits t = true →
      a.isElseIf = true → Reads t a
  | plain : (∀ f : Family, f.hasStatement t = false) → Shape.chained.fits t = false →
      a.isPlain = true → Reads t a

private theorem fits_of_find? {α : Type} {p : Pattern α} {t : Text} {a : α}
    (h : p.find? t = some a) :
    p.fits t = true := by
  rw [fits, h]
  rfl

private theorem fits_eq_false {α : Type} {p : Pattern α} {t : Text}
    (h : ∀ a, p.find? t = some a → False) :
    p.fits t = false := by
  rw [fits, Option.isSome_eq_false_iff, Option.isNone_iff_eq_none]
  exact Option.eq_none_iff_forall_ne_some.mpr h

private theorem reads_read (lines : List Line) (i : Nat) (t : Text) :
    Reads t (Action.read lines i t) := by
  -- the shapes are tried one after the other, those that open no block first
  unfold Action.read
  split
  · next h => exact .early (fun hu => by rw [hu.marker] at h; cases h) rfl rfl
  split
  · next h =>
    refine .early (fun hu => by rw [hu.declare] at h; cases h) ?_ ?_ <;>
      (rw [Action.readDeclare]; split <;> rfl)
  split
  · next h =>
    refine .early (fun hu => by rw [hu.dimension] at h; cases h) ?_ ?_ <;>
      (rw [Action.readDimension]; split <;> rfl)
  split
  · next h => exact .early (fun hu => by rw [hu.input] at h; cases h) rfl rfl
  split
  · next h => exact .early (fun hu => by rw [hu.output] at h; cases h) rfl rfl
  split
  · next h => exact .block .mientras (fits_of_find? h) rfl
  split
  · next h => exact .block .para (fits_of_find? h) rfl
  split
  · next h => exact .block .segun (fits_of_find? h) rfl
  split
  · next h => exact .block .si (fits_of_find? h) rfl
  -- what is left has no statement of any family
  rename_i hwhile _ hfor _ hchoice _ hconditional
  have hnone : ∀ f : Family, f.hasStatement t = false := by
    intro f
    cases f with
    | mientras => exact fits_eq_false hwhile
    | para => exact fits_eq_false hfor
    | si => exact fits_eq_false hconditional
    | segun => exact fits_eq_false hchoice
  split
  · next h => exact .elseIf hnone (fits_of_find? h) rfl
  · next hchained =>
    refine .plain hnone (fits_eq_false hchained) ?_
    split
    · rw [Action.readAssign]
      split <;> rfl
    · rfl

/-! ### Clauses -/

/-- A conditional takes the line at position `i`, if it is at its own level, for a clause with a
condition of its own. -/
structure Branches.CountsElseIf (i : Nat) (l : Line) : Prop where
  opens : Family.si.opens l = false
  closes : Family.si.closes l = false
  clause : clauseOf? i l = some ⟨true, i⟩

private theorem heads_sino_of_fits {t : Text} (h : Branches.elseIfLine.fits t = true) :
    Heads "sino" t := by
  obtain ⟨x, hx⟩ := fits_iff.mp h
  obtain ⟨y, hy, hx⟩ := mem_bind.mp hx
  obtain ⟨z, hz, -⟩ := mem_bind.mp hx
  obtain ⟨k, rest, -, -, hblank⟩ := exists_mem_blank hz
  exact heads_of_mem hy (hblank ▸ List.mem_singleton_self _)

private theorem Heads.exists_mem_keyword {word : String} {t : Text} (h : Heads word t) :
    ∃ y, y ∈ keyword word (.start t) := by
  obtain ⟨kw, k, rest, rfl, hkw, -⟩ := h
  exact ⟨_, mem_keyword.mpr ⟨kw, k :: rest, rfl, hkw, rfl⟩⟩

/-- A text that starts with the word of a family does not start with that of a clause. -/
private theorem Heads.not_heads_sino {f : Family} {t : Text} (h : Heads f.word t) :
    ¬ Heads "sino" t :=
  fun hsino => by
    obtain ⟨y, hy⟩ := hsino.exists_mem_keyword
    exact f.not_sino_isPrefix (h.isPrefix (by decide) hy)

private theorem Branches.CountsElseIf.heads {i : Nat} {l : Line} (h : CountsElseIf i l) :
    Heads "sino" l.text := by
  have hclause := h.clause
  rw [clauseOf?] at hclause
  split at hclause
  · cases hclause
  · split at hclause
    · next hfits => exact heads_sino_of_fits hfits
    · cases hclause

/-- What reads as a clause with a condition counts as one. -/
private theorem Branches.countsElseIf_of_fits (i : Nat) {l : Line}
    (h : Shape.chained.fits l.text = true) :
    CountsElseIf i l := by
  obtain ⟨x, hx⟩ := fits_iff.mp h
  have hclause := fits_of_mem_chained hx
  have hheads := heads_sino_of_fits hclause
  refine ⟨?_, ?_, ?_⟩
  · exact (Bool.not_eq_true _).mp fun hopens => (Family.heads_of_opens hopens).not_heads_sino hheads
  · refine (Bool.not_eq_true _).mp fun hcloses => ?_
    obtain ⟨x, hx⟩ := fits_iff.mp hcloses
    obtain ⟨y, hy, -⟩ := mem_bind.mp hx
    exact hheads.not_mem_keyword (by decide) (by decide) y hy
  · have helse : ¬ elseLine.fits l.text = true := fun helse => by
      rw [fits, find?_chained_eq_none helse] at h
      cases h
    rw [clauseOf?, if_neg helse, if_pos hclause]

/-! ### What follows from either reading -/

namespace Reads

variable {l : Line} {a : Action} (h : Reads l.text a)
include h

/-- A line that opens a block is the statement of its family or a plain one. -/
private theorem of_opens {f : Family} (hf : f.opens l = true) :
    a.family? = some f ∨ a.isPlain = true := by
  have hheads := Family.heads_of_opens hf
  cases h with
  | early hclaimed _ _ => exact absurd (hheads.unclaimed f.word_mem) hclaimed
  | block g hg ha => exact .inl (Family.eq_of_hasStatement hheads hg ▸ ha)
  | elseIf _ hchained _ =>
    exact absurd (Branches.countsElseIf_of_fits 0 hchained).heads hheads.not_heads_sino
  | plain _ _ ha => exact .inr ha

/-- A statement opens a block exactly if its line does and has all that the statement needs. -/
private theorem family?_eq_some_iff (f : Family) :
    a.family? = some f ↔ f.opens l = true ∧ f.hasStatement l.text = true := by
  constructor
  · intro ha
    cases h with
    | early _ hnone _ => cases hnone.symm.trans ha
    | block g hg hfamily =>
      obtain rfl := Option.some.inj (hfamily.symm.trans ha)
      exact ⟨Family.opens_of_hasStatement hg, hg⟩
    | elseIf _ _ helse => cases (Action.family?_of_isElseIf helse).symm.trans ha
    | plain _ _ hplain => cases (Action.family?_of_isPlain hplain).symm.trans ha
  · rintro ⟨hopens, hf⟩
    have hheads := Family.heads_of_opens hopens
    cases h with
    | early hclaimed _ _ => exact absurd (hheads.unclaimed f.word_mem) hclaimed
    | block g hg ha => exact Family.eq_of_hasStatement hheads hg ▸ ha
    | elseIf hnone _ _ | plain hnone _ _ => cases (hnone f).symm.trans hf

private theorem of_countsElseIf {i : Nat} (hi : Branches.CountsElseIf i l) :
    a.isElseIf = true ∨ a.isPlain = true := by
  cases h with
  | early hclaimed _ _ => exact absurd (hi.heads.unclaimed (by decide)) hclaimed
  | block f hf _ =>
    have hheads := Family.heads_of_opens (Family.opens_of_hasStatement hf)
    exact absurd hi.heads hheads.not_heads_sino
  | elseIf _ _ ha => exact .inl ha
  | plain _ _ ha => exact .inr ha

private theorem isElseIf_iff (i : Nat) :
    a.isElseIf = true ↔ Branches.CountsElseIf i l ∧ Shape.chained.fits l.text = true := by
  constructor
  · intro ha
    cases h with
    | early _ _ helse => cases helse.symm.trans ha
    | block f _ hfamily => cases (Action.family?_of_isElseIf ha).symm.trans hfamily
    | elseIf _ hchained _ => exact ⟨Branches.countsElseIf_of_fits i hchained, hchained⟩
    | plain _ _ hplain => cases (Action.isElseIf_of_isPlain hplain).symm.trans ha
  · rintro ⟨hi, hchained⟩
    cases h with
    | early hclaimed _ _ => exact absurd (hi.heads.unclaimed (by decide)) hclaimed
    | block f hf _ =>
      have hheads := Family.heads_of_opens (Family.opens_of_hasStatement hf)
      exact absurd hi.heads hheads.not_heads_sino
    | elseIf _ _ ha => exact ha
    | plain _ hnot _ => cases hnot.symm.trans hchained

end Reads

/-! ### The two readers -/

private theorem mem_header {c : Cursor} (h : c.rest = []) : ((), c) ∈ Shape.header c := by
  rw [Shape.header, optional_bind]
  exact List.mem_append_right _ (mem_finish.mpr ⟨h, rfl⟩)

private theorem exists_mem_bind {α β : Type} {p : Pattern α} {q : α → Pattern β} {c : Cursor}
    (y : α × Cursor) (hy : y ∈ p c) (h : ∃ x, x ∈ q y.1 y.2) : ∃ x, x ∈ (p >>= q) c := by
  obtain ⟨x, hx⟩ := h
  exact ⟨x, mem_bind.mpr ⟨y, hy, hx⟩⟩

/-- A header whose condition is all that stands behind the word and a blank. -/
private theorem fits_headed {word : String} {kw rest : Text} {k : Char}
    (hkw : kw.map Text.foldKeyword = word.toList) (hk : Text.isBlank k = true) (hrest : rest ≠ []) :
    (do keyword word; blanks; let piece ← few anything; Shape.header; return piece.text :
      Pattern Text).fits (kw ++ k :: rest) = true := by
  have hblank : ∀ b ∈ [k], Text.isBlank b = true := List.forall_mem_singleton.mpr hk
  refine fits_iff.mpr
    (exists_mem_bind _ (mem_keyword.mpr ⟨kw, k :: rest, rfl, hkw, rfl⟩) ?_)
  refine exists_mem_bind _
    (mem_blanks.mpr ⟨[k], rest, List.cons_ne_nil _ _, rfl, hblank, rfl⟩) ?_
  refine exists_mem_bind _
    (mem_few.mpr ⟨rest, [], hrest, (List.append_nil rest).symm, fun _ _ => rfl, rfl⟩) ?_
  exact exists_mem_bind _ (mem_header rfl) ⟨_, mem_pure.mpr rfl⟩

/-- Where the word and a blank open a block, something is left for the condition. -/
private theorem Family.hasStatement_of_opens {source : Text} {l : Line}
    (hl : l ∈ Line.ofSource source)
    {f : Family} (hf : f = .mientras ∨ f = .segun) (h : f.opens l = true) :
    f.hasStatement l.text = true := by
  obtain ⟨kw, k, rest, ht, hkw, hk⟩ := heads_of_opens h
  obtain ⟨m, hm, hblank⟩ := Line.exists_last_of_mem hl
  have hrest : rest ≠ [] := by
    rintro rfl
    rw [ht, List.getLast?_append] at hm
    obtain rfl : k = m := by simpa using hm
    rw [hk] at hblank
    cases hblank
  rw [ht]
  rcases hf with rfl | rfl
  · exact fits_headed hkw hk hrest
  · exact fits_headed hkw hk hrest

private theorem exists_line_of_statement {source : Text} {i : Nat} {s : Statement}
    (hs : (Program.ofSource source).statements[i]? = some s) :
    ∃ l ∈ Line.ofSource source, s = ⟨l, Action.read (Line.ofSource source) i l.text⟩ := by
  simp only [Program.ofSource, Program.ofLines, Program.statementsOf, List.getElem?_toArray,
    List.getElem?_mapIdx, Option.map_eq_some_iff] at hs
  obtain ⟨l, hl, rfl⟩ := hs
  exact ⟨l, List.mem_of_getElem? hl, rfl⟩

/-- **The two readers of lines.** For every statement of a program: it opens a block of a family
exactly if its line opens one and has all that the statement needs, which for `Mientras` and `Segun`
every such line has; and it is a clause with a condition exactly if its line counts as one and has
all that the clause needs. A line that opens a block or counts as a clause and lacks something is an
assignment or does nothing. -/
theorem openers_agree (source : Text) (i : Nat) (s : Statement)
    (hs : (Program.ofSource source).statements[i]? = some s) :
    (∀ f : Family, s.action.family? = some f ↔
      f.opens s.line = true ∧ f.hasStatement s.line.text = true) ∧
    (∀ f : Family, f = .mientras ∨ f = .segun →
      (f.opens s.line = true ↔ s.action.family? = some f)) ∧
    (∀ f : Family, f.opens s.line = true →
      s.action.family? = some f ∨ s.action.isPlain = true) ∧
    (s.action.isElseIf = true ↔
      Branches.CountsElseIf i s.line ∧ Shape.chained.fits s.line.text = true) ∧
    (Branches.CountsElseIf i s.line → s.action.isElseIf = true ∨ s.action.isPlain = true) := by
  obtain ⟨l, hl, rfl⟩ := exists_line_of_statement hs
  have hreads := reads_read (Line.ofSource source) i l.text
  refine ⟨hreads.family?_eq_some_iff, fun f hf => ?_, fun f => hreads.of_opens,
    hreads.isElseIf_iff i, hreads.of_countsElseIf⟩
  rw [hreads.family?_eq_some_iff]
  exact ⟨fun h => ⟨h, Family.hasStatement_of_opens hl hf h⟩, And.left⟩

/-- A counting loop around a line that starts like another one. -/
def nestedPara : Text := "Para i <- 1 Hasta 2 Hacer\nPara x\nFinPara\nEscribir \"a\"".toList

private theorem lines_nestedPara : Line.ofSource nestedPara =
    [⟨1, "Para i <- 1 Hasta 2 Hacer".toList⟩, ⟨2, "Para x".toList⟩, ⟨3, "FinPara".toList⟩,
      ⟨4, "Escribir \"a\"".toList⟩] := by
  decide +kernel

private theorem statement_nestedPara : (Program.ofSource nestedPara).statements[1]? =
    some ⟨⟨2, "Para x".toList⟩, .skip⟩ := by
  rw [Program.ofSource, lines_nestedPara]
  rfl

/-- A line that opens a block for the search, though no statement is read from it. -/
theorem openers_agree_nestedPara :
    (Program.ofSource nestedPara).statements[1]? = some ⟨⟨2, "Para x".toList⟩, .skip⟩ ∧
      ∀ f : Family, f.opens ⟨2, "Para x".toList⟩ = true →
        f.hasStatement "Para x".toList = false := by
  refine ⟨statement_nestedPara, fun f hf => (Bool.not_eq_true _).mp fun hstatement => ?_⟩
  have hfamily := (openers_agree nestedPara 1 _ statement_nestedPara).1 f
  cases hfamily.mpr ⟨hf, hstatement⟩

/-- **A line that opens a block need not be a loop.** The line `Para x` does nothing, but it opens a
block. The closing line behind it is used up, and the loop around it never ends. -/
theorem opens_para_of_skip :
    (Program.ofSource nestedPara).statements[1]? = some ⟨⟨2, "Para x".toList⟩, .skip⟩ ∧
      Family.para.opens ⟨2, "Para x".toList⟩ = true ∧
      Family.para.blockEnd (Line.ofSource nestedPara) 1 = 4 := by
  refine ⟨statement_nestedPara, rfl, ?_⟩
  rw [lines_nestedPara]
  rfl

end Pseudocode
