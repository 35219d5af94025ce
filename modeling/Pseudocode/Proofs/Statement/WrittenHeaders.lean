import Pseudocode.Program
import Pseudocode.Proofs.Tree.Reading

/-!
# Headers that are written and read back

A header of a block is written from the texts in it, with or without the word `Hacer` at its end
where that word may stand (`Header.spellings`). **A header is read back from each of its spellings,
with exactly the texts that it was written from** (`headers_read_back`), if none of the words of
these texts is one that parts the texts of headers, in any case.

The patterns of headers take as little as they can for each text. The proof that they do not take
too little is the same for all of them: a text is followed by a blank or by nothing, and so a word
of headers that is found from inside of it, behind blanks, is one of its own words
(`goes_on_of_within`). What differs is only what comes next, the end of the header
(`header_eq_nil_of_within`) or the clause for the step (`stepClause_eq_nil_of_within`).
-/

namespace Pseudocode

namespace Text

/-- The words of a text: its longest runs of word characters. -/
def words (t : Text) : List Text :=
  (t.splitOnP fun k => !isWordChar k).filter fun w => !w.isEmpty

/-- Another character than a word character parts the words before it from those behind it. -/
private theorem words_append_cons {k : Char} (hk : isWordChar k = false) (a b : Text) :
    words (a ++ k :: b) = words a ++ words b := by
  rw [words, List.splitOnP_append_cons a b (by rw [hk]; rfl), List.filter_append]
  rfl

private theorem words_of_forall {w : Text} (hne : w ≠ []) (hw : ∀ k ∈ w, isWordChar k = true) :
    words w = [w] := by
  have hsplit : (w.splitOnP fun k => !isWordChar k) = [w] :=
    List.splitOnP_eq_singleton fun k hk => by rw [hw k hk]; rfl
  rw [words, hsplit, List.filter_singleton, List.isEmpty_eq_false_iff.mpr hne]
  rfl

/-- A run of word characters with none on either side is a word of the text. -/
private theorem mem_words {a w b : Text} (hne : w ≠ []) (hw : ∀ k ∈ w, isWordChar k = true)
    (ha : a.getLast?.any isWordChar = false) (hb : b.head?.any isWordChar = false) :
    w ∈ words (a ++ (w ++ b)) := by
  have hfront : w ∈ words (w ++ b) := by
    cases b with
    | nil =>
      rw [List.append_nil, words_of_forall hne hw]
      exact List.mem_singleton.mpr rfl
    | cons k b =>
      rw [words_append_cons hb, words_of_forall hne hw]
      exact List.mem_cons_self
  rcases List.eq_nil_or_concat' a with rfl | ⟨a, k, rfl⟩
  · exact hfront
  · rw [List.getLast?_concat] at ha
    rw [List.append_assoc]
    change w ∈ words (a ++ k :: (w ++ b))
    rw [words_append_cons ha]
    exact List.mem_append_right _ hfront

end Text

namespace Structured

open Pattern

/-! ### The texts in a header -/

/-- The words that part the texts of headers, in small letters. -/
def headerWords : List Text :=
  ["hasta", "con", "paso", "hacer", "entonces"].map String.toList

/-- A text that may stand in a header: there is something in it, it neither starts nor ends with a
blank, and none of its words parts the texts of headers. -/
structure IsPart (t : Text) : Prop where
  nonempty : t ≠ []
  trimmed : t.Trimmed
  free : ∀ w ∈ t.words, w.map Text.foldKeyword ∉ headerWords

instance (t : Text) : Decidable (IsPart t) :=
  decidable_of_iff (t ≠ [] ∧ t.Trimmed ∧ ∀ w ∈ t.words, w.map Text.foldKeyword ∉ headerWords)
    ⟨fun h => ⟨h.1, h.2.1, h.2.2⟩, fun h => ⟨h.nonempty, h.trimmed, h.free⟩⟩

namespace IsPart

variable {t a b tail : Text} {word : String} {c : Cursor} {y z : Unit × Cursor}

/-- A keyword with no word character on either side is a word of the text, and so none of the words
of headers. -/
private theorem not_keyword (ht : IsPart (a ++ b)) (hw : IsKeyword word)
    (hmem : word.toList ∈ headerWords)
    (hz : z ∈ keyword word ⟨a.getLast?, b⟩) (ha : a.getLast?.any Text.isWordChar = false) :
    z.2.rest.head?.any Text.isWordChar = true := by
  obtain ⟨kw, u, hb, hkw, rfl⟩ := mem_keyword.mp hz
  obtain rfl : b = kw ++ u := hb
  by_contra hend
  refine ht.free kw ?_ (hkw ▸ hmem)
  exact Text.mem_words (hw.ne_nil hkw) (isWordChar_of_map_foldKeyword hkw hw.letters) ha
    ((Bool.not_eq_true _).mp hend)

/-- At the edge of a word before a keyword, the word starts. -/
private theorem before_of_edge (hw : IsKeyword word) {x : Unit × Cursor}
    (hedge : x ∈ edge ⟨a.getLast?, b⟩) (hz : z ∈ keyword word x.2) :
    z ∈ keyword word ⟨a.getLast?, b⟩ ∧ a.getLast?.any Text.isWordChar = false := by
  obtain ⟨hne, rfl⟩ := mem_edge.mp hedge
  obtain ⟨kw, u, hb, hkw, rfl⟩ := mem_keyword.mp hz
  obtain rfl : b = kw ++ u := hb
  rw [any_head? (hw.ne_nil hkw) (isWordChar_of_map_foldKeyword hkw hw.letters)] at hne
  exact ⟨hz, (Bool.not_eq_true _).mp hne⟩

private theorem not_mentioned (ht : IsPart t) (hw : IsKeyword word)
    (hmem : word.toList ∈ headerWords) :
    ¬ (keyword word).Mentioned t := by
  rintro ⟨a, b, rfl, hways⟩
  obtain ⟨v, hv⟩ := List.exists_mem_of_ne_nil _ hways
  obtain ⟨x, hx, hv⟩ := mem_bind.mp hv
  obtain ⟨z, hz, hv⟩ := mem_bind.mp hv
  obtain ⟨hz, ha⟩ := before_of_edge hw hx hz
  obtain ⟨hne, -⟩ := mem_edge.mp hv
  rw [hw.before hz, ht.not_keyword hw hmem hz ha] at hne
  exact hne rfl

private theorem not_mentioned_step (ht : IsPart t) :
    ¬ (do keyword "con"; blanks; keyword "paso" : Pattern Unit).Mentioned t := by
  have hw : IsKeyword "con" := by decide
  rintro ⟨a, b, rfl, hways⟩
  obtain ⟨v, hv⟩ := List.exists_mem_of_ne_nil _ hways
  obtain ⟨x, hx, hv⟩ := mem_bind.mp hv
  obtain ⟨s, hs, -⟩ := mem_bind.mp hv
  obtain ⟨z, hz, hs⟩ := mem_bind.mp hs
  obtain ⟨y, hy, -⟩ := mem_bind.mp hs
  obtain ⟨hz, ha⟩ := before_of_edge hw hx hz
  have hgoes := ht.not_keyword hw (by decide) hz ha
  rw [head?_any_of_mem_blanks hy] at hgoes
  cases hgoes

/-- A text that may stand in a header mentions no separator of expressions. -/
def operand (ht : IsPart t) : Operand where
  text := t
  nonempty := ht.nonempty
  trimmed := ht.trimmed
  free phrase hphrase := by
    simp only [separators, List.mem_cons, List.not_mem_nil, or_false] at hphrase
    rcases hphrase with rfl | rfl | rfl
    · exact ht.not_mentioned (by decide) (by decide)
    · exact ht.not_mentioned_step
    · exact ht.not_mentioned (by decide) (by decide)

/-! ### Where a text of a header ends -/

/-- What follows a text in a header: nothing, or a blank and more. -/
def Follows (tail : Text) : Prop := tail = [] ∨ ∃ rest, tail = ' ' :: rest

/-- **Where blanks and a word of headers are found from inside a text, a longer word stands
there.** -/
theorem goes_on_of_within (ht : IsPart t) (hab : t = a ++ b) (hb : b ≠ []) (hw : IsKeyword word)
    (hmem : word.toList ∈ headerWords) (htail : Follows tail) (hc : c.rest = b ++ tail)
    (hy : y ∈ blanks c) (hz : z ∈ keyword word y.2) :
    z.2.rest.head?.any Text.isWordChar = true := by
  by_contra hend
  rw [Bool.not_eq_true] at hend
  refine ht.not_mentioned hw hmem ?_
  rcases htail with rfl | ⟨rest, rfl⟩
  · -- the blanks and the keyword are all in the text
    obtain ⟨bl, r, hbl, hr, hblank, rfl⟩ := mem_blanks.mp hy
    obtain ⟨kw, u, hu, hkw, rfl⟩ := mem_keyword.mp hz
    obtain rfl : r = kw ++ u := hu
    have hword := isWordChar_of_map_foldKeyword hkw hw.letters
    rw [hc, List.append_nil] at hr
    rw [hab, hr, ← List.append_assoc]
    exact mentioned_of_mem (mem_keyword.mpr ⟨kw, u, rfl, hkw, rfl⟩)
      (any_getLast?_append hbl hblank) (any_head? (hw.ne_nil hkw) hword)
      (any_getLast? (hw.ne_nil hkw) hword) hend
  · exact mentioned_of_within (e := ht.operand) hab hb hw hc hy hz hend

/-- The end of a header is not found from inside a text. -/
theorem header_eq_nil_of_within (ht : IsPart t) (hab : t = a ++ b) (hb : b ≠ [])
    (htail : Follows tail) (hc : c.rest = b ++ tail) : Shape.header c = [] := by
  refine List.eq_nil_iff_forall_not_mem.mpr fun x hx => ?_
  rw [Shape.header, optional_bind, List.mem_append] at hx
  rcases hx with hx | hx
  · rw [bind_assoc, mem_bind] at hx
    obtain ⟨y, hy, hx⟩ := hx
    obtain ⟨z, hz, hx⟩ := mem_bind.mp hx
    obtain ⟨hnil, -⟩ := mem_finish.mp hx
    have hgoes := ht.goes_on_of_within hab hb (by decide) (by decide) htail hc hy hz
    rw [hnil] at hgoes
    cases hgoes
  · obtain ⟨hnil, -⟩ := mem_finish.mp hx
    rw [hc] at hnil
    exact hb (List.append_eq_nil_iff.mp hnil).1

/-- The clause for the step is not found from inside a text. -/
theorem stepClause_eq_nil_of_within (ht : IsPart t) (hab : t = a ++ b) (hb : b ≠ [])
    (htail : Follows tail) (hc : c.rest = b ++ tail) : stepClause c = [] := by
  refine List.eq_nil_iff_forall_not_mem.mpr fun x hx => ?_
  obtain ⟨y, hy, hx⟩ := mem_bind.mp hx
  obtain ⟨z, hz, hx⟩ := mem_bind.mp hx
  obtain ⟨v, hv, -⟩ := mem_bind.mp hx
  have hgoes := ht.goes_on_of_within hab hb (by decide) (by decide) htail hc hy hz
  rw [head?_any_of_mem_blanks hv] at hgoes
  cases hgoes

end IsPart

/-! ### Headers with either ending -/

/-- The two ways to end the header of a loop or of a choice. -/
def endings : List Text := [[], " Hacer".toList]

private theorem follows_of_mem_endings {ending : Text} (h : ending ∈ endings) :
    IsPart.Follows ending := by
  simp only [endings, List.mem_cons, List.not_mem_nil, or_false] at h
  rcases h with rfl | rfl
  · exact .inl rfl
  · exact .inr ⟨_, rfl⟩

private theorem finds_ending {ending : Text} (h : ending ∈ endings) (before : Option Char) :
    ∃ d, Finds Shape.header ⟨before, ending⟩ () d := by
  simp only [endings, List.mem_cons, List.not_mem_nil, or_false] at h
  rcases h with rfl | rfl
  · exact ⟨_, rfl⟩
  · exact ⟨_, rfl⟩

/-- A text up to the end of the header. -/
private theorem finds_part {α : Type} {t ending : Text} (ht : IsPart t) (hending : ending ∈ endings)
    (before : Option Char) (make : Text → α) :
    ∃ d, Finds (do let piece ← few anything; Shape.header; return make piece.text)
      ⟨before, t ++ ending⟩ (make t) d := by
  obtain ⟨d, hd⟩ := finds_ending hending (t.getLast?.or before)
  refine ⟨d, Finds.few (t := t) (u := ending) rfl ht.nonempty (fun a b hab _ hb => ?_) ?_⟩
  · refine bind_eq_nil_iff.mpr fun y hy => ?_
    rw [ht.header_eq_nil_of_within hab hb (follows_of_mem_endings hending) rfl] at hy
    cases hy
  · exact Finds.bind hd (finds_pure (by rw [text_append]) _)

/-- A header with one text. -/
private theorem find?_headed {word : String} {w t ending : Text}
    (hw : w.map Text.foldKeyword = word.toList) (ht : IsPart t) (hending : ending ∈ endings) :
    (do keyword word; blanks; let piece ← few anything; Shape.header; return piece.text :
      Pattern Text).find? (w ++ ' ' :: (t ++ ending)) = some t := by
  obtain ⟨d, hd⟩ := finds_part ht hending (some ' ') id
  exact ((finds_keyword hw).bind ((finds_blanks (ht.operand.head _)).bind hd)).find?

/-- What follows the last value of a counter up to the end of the header. -/
def stepPart : Option Text → Text
  | none => []
  | some s => " Con Paso ".toList ++ s

private theorem follows_stepPart (step : Option Text) {ending : Text} (hending : ending ∈ endings) :
    IsPart.Follows (stepPart step ++ ending) := by
  cases step with
  | none => exact follows_of_mem_endings hending
  | some s => exact .inr ⟨_, rfl⟩

private theorem stepClause_ending {ending : Text} (h : ending ∈ endings) (before : Option Char) :
    stepClause ⟨before, ending⟩ = [] := by
  simp only [endings, List.mem_cons, List.not_mem_nil, or_false] at h
  rcases h with rfl | rfl <;> rfl

/-- The last value of a counter and its step. -/
private theorem finds_last_part {t ending : Text} {step : Option Text} (ht : IsPart t)
    (hstep : ∀ s ∈ step, IsPart s) (hending : ending ∈ endings) (counter first : Text)
    (before : Option Char) :
    ∃ d, Finds (do
        let last ← few anything
        let step ← optional stepClause
        Shape.header
        return (⟨counter, first, last.text, step⟩ : Shape.Counting))
      ⟨before, t ++ (stepPart step ++ ending)⟩ ⟨counter, first, t, step⟩ d := by
  have hfollows := follows_stepPart step hending
  -- inside the last value, neither a step nor the end of the header can follow
  have hearly : ∀ a b, t = a ++ b → a ≠ [] → b ≠ [] → ∀ piece : Piece,
      (do
        let step ← optional stepClause
        Shape.header
        return (⟨counter, first, piece.text, step⟩ : Shape.Counting))
      (Cursor.past a ⟨before, t ++ (stepPart step ++ ending)⟩ (b ++ (stepPart step ++ ending))) =
        [] := by
    intro a b hab _ hb piece
    rw [optional_bind, bind_eq_nil_iff.mpr, List.nil_append]
    · refine bind_eq_nil_iff.mpr fun y hy => ?_
      rw [ht.header_eq_nil_of_within hab hb hfollows rfl] at hy
      cases hy
    · intro y hy
      rw [ht.stepClause_eq_nil_of_within hab hb hfollows rfl] at hy
      cases hy
  cases step with
  | none =>
    obtain ⟨d, hd⟩ := finds_ending hending (t.getLast?.or before)
    refine ⟨d, Finds.few (t := t) (u := ending) rfl ht.nonempty
      (fun a b hab ha hb => hearly a b hab ha hb _) ?_⟩
    refine Finds.optional_none (bind_eq_nil_iff.mpr fun y hy => ?_)
      (hd.bind (finds_pure (by rw [text_append]) _))
    rw [show Cursor.past t _ ending = ⟨t.getLast?.or before, ending⟩ from rfl,
      stepClause_ending hending] at hy
    cases hy
  | some s =>
    have hs : IsPart s := hstep s rfl
    obtain ⟨d, hd⟩ := finds_part hs hending (some ' ') fun step =>
      (⟨counter, first, t, some step⟩ : Shape.Counting)
    refine ⟨d, Finds.few (t := t) (u := " Con Paso ".toList ++ (s ++ ending)) rfl ht.nonempty
      (fun a b hab ha hb => hearly a b hab ha hb _) (Finds.optional ?_)⟩
    rw [text_append]
    simp only [stepClause, bind_assoc, pure_bind]
    refine (finds_blanks (b := "Con Paso ".toList ++ _) (head_of_not_blank rfl)).bind ?_
    refine (finds_keyword (a := "Con".toList) (b := " Paso ".toList ++ _) rfl).bind ?_
    refine (finds_blanks (b := "Paso ".toList ++ _) (head_of_not_blank rfl)).bind ?_
    refine (finds_keyword (a := "Paso".toList) (b := ' ' :: _) rfl).bind ?_
    exact (finds_blanks (hs.operand.head _)).bind hd

private theorem find?_counting {v a b ending : Text} {step : Option Text} (hne : v ≠ [])
    (hv : ∀ k ∈ v, Text.isWordChar k = true) (ha : IsPart a) (hb : IsPart b)
    (hstep : ∀ s ∈ step, IsPart s) (hending : ending ∈ endings) :
    Shape.forLoop.find? ("Para ".toList ++ (v ++ (" <- ".toList ++ (a ++ (" Hasta ".toList ++
      (b ++ (stepPart step ++ ending))))))) = some ⟨v, a, b, step⟩ := by
  obtain ⟨d, hd⟩ := finds_last_part hb hstep hending v a (some ' ')
  refine Finds.find? (d := d) ?_
  refine (finds_keyword (a := "Para".toList) (b := ' ' :: _) rfl).bind ?_
  refine (finds_blanks (Counter.head ⟨v, hne, hv⟩ _)).bind ?_
  refine (finds_run (a := v) (b := " <- ".toList ++ _) rfl hne hv ?_).bind ?_
  · rintro k ⟨⟩
    rfl
  refine (finds_someBlanks (b := "<- ".toList ++ _) (head_of_not_blank rfl)).bind ?_
  refine (finds_arrow _ _).bind ?_
  refine (finds_someBlanks (ha.operand.head _)).bind ?_
  refine finds_first ha.operand (hb.operand.head _) ?_
  rw [text_append, text_append]
  exact hd

end Structured

/-! ### Headers -/

open Structured

/-- The header of a block, with the texts in it. -/
inductive Header where
  | counting (counter first last : Text) (step : Option Text)
  | repeating (condition : Text)
  | choosing (subject : Text)
  | asking (condition : Text)
  | askingAgain (condition : Text)

namespace Header

/-- The lines that a header may be written as. -/
def spellings : Header → List Text
  | counting v a b step => endings.map fun ending =>
      "Para ".toList ++ (v ++ (" <- ".toList ++ (a ++ (" Hasta ".toList ++
        (b ++ (stepPart step ++ ending))))))
  | repeating c => endings.map fun ending => "Mientras ".toList ++ (c ++ ending)
  | choosing c => endings.map fun ending => "Segun ".toList ++ (c ++ ending)
  | asking c => ["Si ".toList ++ (c ++ " Entonces".toList)]
  | askingAgain c => ["SiNo Si ".toList ++ (c ++ " Entonces".toList)]

/-- The counter is a word, and the other texts may stand in a header. -/
def WellFormed : Header → Prop
  | counting v a b step =>
    v ≠ [] ∧ (∀ k ∈ v, Text.isWordChar k = true) ∧ IsPart a ∧ IsPart b ∧ ∀ s ∈ step, IsPart s
  | repeating c | choosing c | asking c | askingAgain c => IsPart c

/-- What the line at position `i` does if it is the header. -/
def action (lines : List Line) (i : Nat) : Header → Action
  | counting v a b step => .forLoop v a b step ⟨i + 1, Family.para.blockEnd lines (i + 1)⟩
  | repeating c => .whileLoop c ⟨i + 1, Family.mientras.blockEnd lines (i + 1)⟩
  | choosing c => .choice c (.ofLines lines (i + 1))
  | asking c => .conditional c (.ofLines lines (i + 1)) false
  | askingAgain c => .conditional c (.ofLines lines (i + 1)) true

variable {lines : List Line} {i : Nat}

private theorem read_repeating {c ending : Text} (hc : IsPart c) (hending : ending ∈ endings) :
    Action.read lines i ("Mientras ".toList ++ (c ++ ending)) = action lines i (repeating c) := by
  have h : Unclaimed ("Mientras ".toList ++ (c ++ ending)) := ⟨rfl, rfl, rfl, rfl, rfl⟩
  have hfind : Shape.whileLoop.find? ("Mientras ".toList ++ (c ++ ending)) = some c :=
    find?_headed (w := "Mientras".toList) rfl hc hending
  simp only [Action.read, h.marker, h.declare, h.dimension, h.input, h.output, hfind,
    if_neg Bool.false_ne_true, Action.readWhile, hc.trimmed.trim_eq, action]

private theorem read_choosing {c ending : Text} (hc : IsPart c) (hending : ending ∈ endings) :
    Action.read lines i ("Segun ".toList ++ (c ++ ending)) = action lines i (choosing c) := by
  have h : Unclaimed ("Segun ".toList ++ (c ++ ending)) := ⟨rfl, rfl, rfl, rfl, rfl⟩
  have hwhile : Shape.whileLoop.find? ("Segun ".toList ++ (c ++ ending)) = none := rfl
  have hfor : Shape.forLoop.find? ("Segun ".toList ++ (c ++ ending)) = none := rfl
  have hfind : Shape.choice.find? ("Segun ".toList ++ (c ++ ending)) = some c :=
    find?_headed (w := "Segun".toList) rfl hc hending
  simp only [Action.read, h.marker, h.declare, h.dimension, h.input, h.output, hwhile, hfor, hfind,
    if_neg Bool.false_ne_true, hc.trimmed.trim_eq, action]

private theorem read_counting {v a b ending : Text} {step : Option Text}
    (h : (counting v a b step).WellFormed) (hending : ending ∈ endings) :
    Action.read lines i ("Para ".toList ++ (v ++ (" <- ".toList ++ (a ++ (" Hasta ".toList ++
      (b ++ (stepPart step ++ ending))))))) = action lines i (counting v a b step) := by
  obtain ⟨hne, hv, ha, hb, hstep⟩ := h
  have hfind := find?_counting hne hv ha hb hstep hending
  generalize ht : "Para ".toList ++ (v ++ (" <- ".toList ++ (a ++ (" Hasta ".toList ++
    (b ++ (stepPart step ++ ending)))))) = t at hfind ⊢
  have h : Unclaimed t := by
    subst ht
    exact ⟨rfl, rfl, rfl, rfl, rfl⟩
  have hwhile : Shape.whileLoop.find? t = none := by
    subst ht
    rfl
  have htrim : step.map Text.trim = step := by
    cases step with
    | none => rfl
    | some s => exact congrArg some (hstep s rfl).trimmed.trim_eq
  simp only [Action.read, h.marker, h.declare, h.dimension, h.input, h.output, hwhile, hfind,
    if_neg Bool.false_ne_true, Action.readFor, ha.trimmed.trim_eq, hb.trimmed.trim_eq, htrim,
    action]

/-- A line reads as the header that it spells. -/
private theorem read_spelling {h : Header} (hwell : h.WellFormed) {t : Text}
    (ht : t ∈ h.spellings) :
    Action.read lines i t = h.action lines i := by
  cases h with
  | counting v a b step =>
    obtain ⟨ending, hending, rfl⟩ := List.mem_map.mp ht
    exact read_counting hwell hending
  | repeating c =>
    obtain ⟨ending, hending, rfl⟩ := List.mem_map.mp ht
    exact read_repeating hwell hending
  | choosing c =>
    obtain ⟨ending, hending, rfl⟩ := List.mem_map.mp ht
    exact read_choosing hwell hending
  | asking c =>
    obtain rfl := List.mem_singleton.mp ht
    exact read_conditionalText lines i (IsPart.operand hwell)
  | askingAgain c =>
    obtain rfl := List.mem_singleton.mp ht
    exact read_chainedText lines i (IsPart.operand hwell)

end Header

/-- **Headers are read back.** Wherever a line of a program spells a well-formed header, the
statement of the program there is that header, with exactly its texts. -/
theorem headers_read_back (lines : List Line) (i : Nat) (l : Line) (h : Header)
    (hwell : h.WellFormed) (hl : lines[i]? = some l) (ht : l.text ∈ h.spellings) :
    (Program.ofLines lines).statements[i]? = some ⟨l, h.action lines i⟩ := by
  rw [← Header.read_spelling hwell ht]
  simp [Program.ofLines, Program.statementsOf, hl]

/-- A counting loop whose texts hold blanks, operators, quotes and words that start like those of
headers, without `Hacer` at its end. -/
theorem headers_read_back_counting :
    (Program.ofLines
      [⟨1, "Para i <- \"hasta2\" + contra Hasta paso_1 < n Con Paso x / (hacerlo)".toList⟩,
        ⟨2, "FinPara".toList⟩]).statements[0]? =
      some ⟨⟨1, "Para i <- \"hasta2\" + contra Hasta paso_1 < n Con Paso x / (hacerlo)".toList⟩,
        .forLoop "i".toList "\"hasta2\" + contra".toList "paso_1 < n".toList
          (some "x / (hacerlo)".toList) ⟨1, 1⟩⟩ :=
  headers_read_back _ 0 _
    (.counting "i".toList "\"hasta2\" + contra".toList "paso_1 < n".toList
      (some "x / (hacerlo)".toList))
    ⟨by decide, List.all_eq_true.mp (by decide), by decide, by decide,
      by rintro s ⟨⟩; decide⟩ rfl (by decide)

end Pseudocode
