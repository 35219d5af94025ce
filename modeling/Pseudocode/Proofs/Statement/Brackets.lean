import Pseudocode.Proofs.Block.Openers
import Pseudocode.Proofs.Expr.Plain

/-!
# Brackets in assignments and definitions of arrays

A line `a[e] <- v` gives a value to an element, and a line `Dimension a[e]` defines an array. Both
patterns take for `e` what stands before the first closing bracket, while the reader of expressions
pairs brackets. So the two agree on the index exactly if there is no closing bracket in it
(`brackets_end_at_first`).

With a closing bracket in the index, as in `a[b[1]] <- 2` or `Dimension a[b[1]]`, the first of them
is taken for the end. The definition is then one of another size. The assignment is lost, or, if an
arrow or an equals sign follows the first bracket, it is another assignment.

No other statement claims a line that starts with a word and a bracket, whatever the word: the
keywords of statements want a blank behind them. Only the words that start or end a program do not
(`MarksProgram`).
-/

namespace Pseudocode

/-! ### Texts with one closing bracket -/

/-- `a[e] <- v`. -/
def elementText (a e v : Text) : Text := a ++ '[' :: (e ++ ("] <- ".toList ++ v))

/-- `a[e]`. -/
def bracketText (a e : Text) : Text := a ++ '[' :: (e ++ [']'])

/-- `Dimension a[e]`. -/
def dimensionText (a e : Text) : Text := "Dimension ".toList ++ bracketText a e

namespace Text

/-- What stands before the first closing bracket of a text. -/
def beforeBracket (t : Text) : Text := t.takeWhile (· != ']')

private theorem ne_of_notMem {t : Text} (h : ']' ∉ t) : ∀ k ∈ t, (k != ']') = true :=
  fun _ hk => bne_iff_ne.mpr fun hno => h (hno ▸ hk)

private theorem ne_of_mem_beforeBracket {t : Text} : ∀ k ∈ t.beforeBracket, (k != ']') = true :=
  fun _ hk => List.mem_takeWhile_imp (p := (· != ']')) hk

private theorem beforeBracket_append {s : Text} (hs : ∀ k ∈ s, (k != ']') = true) (more : Text) :
    beforeBracket (s ++ ']' :: more) = s := by
  rw [beforeBracket, List.takeWhile_append_of_pos hs]
  exact List.append_nil s

/-- A closing bracket parts a text. -/
private theorem exists_eq_beforeBracket {t : Text} (h : ']' ∈ t) :
    ∃ more, t = t.beforeBracket ++ ']' :: more := by
  obtain ⟨s, more, ht, hs⟩ := List.eq_append_cons_of_mem h
  refine ⟨more, ?_⟩
  rw [ht, beforeBracket_append (ne_of_notMem hs)]

end Text

/-! ### Lines that start with a word and a bracket -/

open Pattern Structured

/-- The words that start a program or a part of it. -/
def markerWords : List String := ["algoritmo", "proceso", "subproceso", "funcion"]

/-- A word that starts or ends a program or a part of it, as one word. -/
def MarksProgram (a : Text) : Prop :=
  ∃ w ∈ markerWords, a.map Text.foldKeyword = w.toList ∨
    a.map Text.foldKeyword = "fin".toList ++ w.toList

instance (a : Text) : Decidable (MarksProgram a) :=
  inferInstanceAs (Decidable (∃ w ∈ markerWords, _ ∨ _))

private theorem isKeyword_of_mem_markerWords : ∀ w ∈ markerWords, IsKeyword w := by decide

section Bracket

variable {α : Type} {a rest : Text} (hword : ∀ k ∈ a, Text.isWordChar k = true)

include hword

/-- What is left of the word and the bracket starts with no blank. -/
private theorem isBlank_head_bracket {k : Char} (hk : k ∈ (a ++ '[' :: rest).head?) :
    Text.isBlank k = false := by
  cases a with
  | nil =>
    obtain rfl := Option.some.inj hk
    decide
  | cons c a =>
    obtain rfl := Option.some.inj hk
    exact Text.isBlank_eq_false_of_isWordChar (hword c List.mem_cons_self)

/-- A sign other than the bracket is no start of what is left of the word and the bracket. -/
private theorem head_bracket_ne {k : Char} (hk : Text.isWordChar k = false)
    (hne : k ≠ '[') (b : Text) : a ++ '[' :: rest ≠ k :: b := by
  intro h
  cases a with
  | nil => exact hne (List.cons.inj h).1.symm
  | cons c a =>
    obtain ⟨rfl, -⟩ := List.cons.inj h
    rw [hword c List.mem_cons_self] at hk
    cases hk

/-- No blank stands behind a keyword at the start of the line. -/
private theorem blanks_eq_nil_of_keyword {v : String} (hv : IsKeyword v) {before : Option Char}
    {y : Unit × Cursor} (hy : y ∈ keyword v ⟨before, a ++ '[' :: rest⟩) : blanks y.2 = [] := by
  obtain ⟨kw, b, hrest, hkw, rfl⟩ := mem_keyword.mp hy
  obtain ⟨a', rfl, rfl⟩ := exists_of_append_eq (Eq.symm hrest)
    (isWordChar_of_map_foldKeyword hkw hv.letters) (by decide)
  refine List.eq_nil_iff_forall_not_mem.mpr fun z hz => ?_
  obtain ⟨bl, b', hne, hb, hbl, -⟩ := mem_blanks.mp hz
  obtain ⟨k, bl, rfl⟩ := List.exists_cons_of_ne_nil hne
  have hhead : Text.isBlank k = false :=
    isBlank_head_bracket (fun l hl => hword l (List.mem_append_right kw hl))
      (show k ∈ (a' ++ '[' :: rest).head? by rw [show a' ++ '[' :: rest = _ from hb]; rfl)
  rw [hbl k List.mem_cons_self] at hhead
  cases hhead

private theorem find?_keyword_eq_none {v : String} (hv : IsKeyword v) (q : Unit → Pattern α) :
    (keyword v >>= fun _ => blanks >>= q).find? (a ++ '[' :: rest) = none := by
  refine find?_eq_none_iff.mpr (bind_eq_nil_iff.mpr fun y hy => bind_eq_nil_iff.mpr fun z hz => ?_)
  rw [blanks_eq_nil_of_keyword hword hv hy] at hz
  cases hz

private theorem find?_output_eq_none : Shape.output.find? (a ++ '[' :: rest) = none := by
  refine find?_eq_none_iff.mpr (bind_eq_nil_iff.mpr fun y hy => bind_eq_nil_iff.mpr fun z hz => ?_)
  have hnil : blanks y.2 = [] := by
    simp only [either, List.mem_append] at hy
    rcases hy with hy | hy | hy <;> exact blanks_eq_nil_of_keyword hword (by decide) hy
  rw [hnil] at hz
  cases hz

/-- A keyword at the start of a word, with the edge of a word behind it, is the whole word. -/
private theorem eq_of_mem_edge {w : String} (hw : IsKeyword w) {before : Option Char} {kw b : Text}
    {x : Unit × Cursor} (hrest : a ++ '[' :: rest = kw ++ b)
    (hkw : kw.map Text.foldKeyword = w.toList) (hx : x ∈ edge ⟨kw.getLast?.or before, b⟩) :
    a = kw := by
  have hletters := isWordChar_of_map_foldKeyword hkw hw.letters
  obtain ⟨a', rfl, rfl⟩ := exists_of_append_eq hrest.symm hletters (by decide)
  cases a' with
  | nil => exact List.append_nil kw
  | cons c a' =>
    obtain ⟨hedge, -⟩ := mem_edge.mp hx
    have hne : kw ≠ [] := hw.ne_nil hkw
    refine absurd ?_ hedge
    rw [List.getLast?_eq_some_getLast hne]
    simp [hletters _ (List.getLast_mem hne), hword c (by simp)]

/-- A word that marks a program and ends at an edge is the whole word. -/
private theorem exists_of_mem_marker {before : Option Char} {x y : Unit × Cursor}
    (hy : y ∈ either (keyword "algoritmo") (either (keyword "proceso")
      (either (keyword "subproceso") (keyword "funcion"))) ⟨before, a ++ '[' :: rest⟩)
    (hx : x ∈ edge y.2) : ∃ w ∈ markerWords, a.map Text.foldKeyword = w.toList := by
  obtain ⟨w, hw, hy⟩ : ∃ w ∈ markerWords, y ∈ keyword w ⟨before, a ++ '[' :: rest⟩ := by
    simp only [either, List.mem_append] at hy
    simpa [markerWords] using hy
  obtain ⟨kw, b, hrest, hkw, rfl⟩ := mem_keyword.mp hy
  rw [eq_of_mem_edge hword (isKeyword_of_mem_markerWords w hw) hrest hkw hx]
  exact ⟨w, hw, hkw⟩

/-- A line that starts with a word and a bracket marks a program by this word alone. -/
private theorem marksProgram_of_fits (h : Shape.marker.fits (a ++ '[' :: rest) = true) :
    MarksProgram a := by
  obtain ⟨x, hx⟩ := fits_iff.mp h
  rw [Shape.marker, optional_bind, List.mem_append] at hx
  rcases hx with hx | hx
  · rw [bind_assoc] at hx
    obtain ⟨y, hy, hx⟩ := mem_bind.mp hx
    obtain ⟨⟨_, before, behind⟩, hz, hx⟩ := mem_bind.mp hx
    obtain ⟨fin, b, hrest, hfin, rfl⟩ := mem_keyword.mp hy
    obtain ⟨a', rfl, rfl⟩ := exists_of_append_eq (Eq.symm hrest)
      (isWordChar_of_map_foldKeyword hfin (show IsKeyword "fin" by decide).letters) (by decide)
    have hword' : ∀ k ∈ a', Text.isWordChar k = true :=
      fun k hk => hword k (List.mem_append_right fin hk)
    obtain rfl : behind = a' ++ '[' :: rest :=
      rest_of_mem_someBlanks hz fun k hk => isBlank_head_bracket hword' hk
    obtain ⟨u, hu, hx⟩ := mem_bind.mp hx
    obtain ⟨w, hw, ha'⟩ := exists_of_mem_marker hword' hu hx
    exact ⟨w, hw, .inr (by rw [List.map_append, hfin, ha'])⟩
  · obtain ⟨y, hy, hx⟩ := mem_bind.mp hx
    obtain ⟨w, hw, ha⟩ := exists_of_mem_marker hword hy hx
    exact ⟨w, hw, .inl ha⟩

/-- **The line is an assignment or nothing.** -/
theorem read_bracket (lines : List Line) (i : Nat) (hmarks : ¬ MarksProgram a) :
    Action.read lines i (a ++ '[' :: rest) =
      (Shape.assign.find? (a ++ '[' :: rest)).elim .skip Action.readAssign := by
  have hmarker : ¬ Shape.marker.fits (a ++ '[' :: rest) = true :=
    fun h => hmarks (marksProgram_of_fits hword h)
  have hdeclare : Shape.declare.find? (a ++ '[' :: rest) = none :=
    find?_keyword_eq_none hword (by decide) _
  have hdimension : Shape.dimension.find? (a ++ '[' :: rest) = none :=
    find?_keyword_eq_none hword (by decide) _
  have hinput : Shape.input.find? (a ++ '[' :: rest) = none :=
    find?_keyword_eq_none hword (by decide) _
  have hwhile : Shape.whileLoop.find? (a ++ '[' :: rest) = none :=
    find?_keyword_eq_none hword (by decide) _
  have hfor : Shape.forLoop.find? (a ++ '[' :: rest) = none :=
    find?_keyword_eq_none hword (by decide) _
  have hchoice : Shape.choice.find? (a ++ '[' :: rest) = none :=
    find?_keyword_eq_none hword (by decide) _
  have hconditional : Shape.conditional.find? (a ++ '[' :: rest) = none :=
    find?_keyword_eq_none hword (by decide) _
  have hchained : Shape.chained.find? (a ++ '[' :: rest) = none :=
    find?_keyword_eq_none hword (by decide) _
  simp only [Action.read, if_neg hmarker, hdeclare, hdimension, hinput, find?_output_eq_none hword,
    hwhile, hfor, hchoice, hconditional, hchained]
  cases Shape.assign.find? (a ++ '[' :: rest) <;> rfl

/-- There is no arrow behind a part of the word. -/
private theorem arrow_eq_nil {c : Cursor} (hc : c.rest = a ++ '[' :: rest) (q : Unit → Pattern α) :
    (someBlanks >>= fun _ => either (signs "<-") (signs "=") >>= q) c = [] := by
  refine bind_eq_nil_iff.mpr fun y hy => bind_eq_nil_iff.mpr fun z hz => ?_
  have hrest : y.2.rest = a ++ '[' :: rest := by
    rw [rest_of_mem_someBlanks hy fun k hk => isBlank_head_bracket hword (hc ▸ hk), hc]
  rcases List.mem_append.mp hz with hz | hz
  all_goals
    obtain ⟨b, hb, -⟩ := mem_signs hz
    rw [hrest] at hb
    exact absurd hb (head_bracket_ne hword (by decide) (by decide) _)

/-- **An index ends at the first closing bracket**, in every way to match the line. -/
theorem index_of_mem_assign {x : Shape.Assignment × Cursor}
    (hx : x ∈ Shape.assign (.start (a ++ '[' :: rest))) :
    x.1.name = a ∧ x.1.index = some rest.beforeBracket := by
  obtain ⟨y, hy, hx⟩ := mem_bind.mp hx
  obtain ⟨name, b, -, hrest, hname, rfl⟩ := mem_run.mp hy
  obtain ⟨a', rfl, rfl⟩ := exists_of_append_eq (Eq.symm hrest) hname (by decide)
  have hword' : ∀ k ∈ a', Text.isWordChar k = true :=
    fun k hk => hword k (List.mem_append_right name hk)
  obtain ⟨z, hz, hx⟩ := mem_bind.mp hx
  have hz : z.2.rest = a' ++ '[' :: rest :=
    rest_of_mem_someBlanks hz fun k hk => isBlank_head_bracket hword' hk
  rw [optional_bind, List.mem_append] at hx
  rcases hx with hx | hx
  · simp only [bind_assoc, pure_bind] at hx
    obtain ⟨u, hu, hx⟩ := mem_bind.mp hx
    obtain ⟨behind, hbehind, hu⟩ := mem_signs hu
    rw [hz] at hbehind
    obtain rfl : a' = [] := by
      cases a' with
      | nil => rfl
      | cons c a' =>
        obtain ⟨rfl, -⟩ := List.cons.inj hbehind
        exact absurd (hword' _ List.mem_cons_self) (by decide)
    obtain rfl : rest = behind := (List.cons.inj hbehind).2
    obtain ⟨v, hv, hx⟩ := mem_bind.mp hx
    obtain ⟨index, r, -, hindex, hclass, rfl⟩ := mem_run.mp hv
    obtain ⟨w, hw, hx⟩ := mem_bind.mp hx
    obtain ⟨more, hmore, -⟩ := mem_signs hw
    obtain rfl : r = ']' :: more := hmore
    rw [hu] at hindex hx
    obtain ⟨_, -, hx⟩ := mem_bind.mp hx
    obtain ⟨_, -, hx⟩ := mem_bind.mp hx
    obtain ⟨_, -, hx⟩ := mem_bind.mp hx
    obtain ⟨_, -, hx⟩ := mem_bind.mp hx
    obtain rfl := mem_pure.mp hx
    refine ⟨?_, congrArg some ?_⟩
    · rw [List.append_nil]
      exact text_append name _
    · rw [hindex, Text.beforeBracket_append hclass]
      exact text_append index _
  · -- without an index there would have to be an arrow
    rw [arrow_eq_nil hword' hz] at hx
    cases hx

end Bracket

/-! ### Indices without a closing bracket -/

namespace Expr

/-- An expression is more than blanks, and does not start with a closing bracket. -/
private theorem exists_head_of_parse {t : Text} {tree : Expr} (h : Expr.parse t = .ok tree) :
    ∃ c rest, t.trim = c :: rest ∧ c ≠ ']' := by
  obtain ⟨tokens, htokens, hderives⟩ := Grammar.parse_eq_ok_iff.mp h
  obtain ⟨token, more, rfl, hstarts⟩ := hderives.head
  cases ht : t.trim with
  | nil =>
    rw [ht, Token.tokensFrom] at htokens
    cases htokens
  | cons c rest =>
    rw [ht] at htokens
    have hblank : Text.isBlank c = false := (Text.trimmed_trim t).head c (by rw [ht]; rfl)
    obtain ⟨l, ts, hl, -, htoken⟩ := Token.exists_lexeme_of_tokensFrom hblank htokens
    refine ⟨c, rest, rfl, ?_⟩
    rintro rfl
    have hsymbol : l.symbol = .bracket false := by
      cases hl
      rfl
    rw [(List.cons.inj htoken).1, hsymbol] at hstarts
    cases hstarts

/-- What stands before the first closing bracket of an expression is not empty. -/
private theorem beforeBracket_ne_nil_of_parse {t : Text} {tree : Expr}
    (h : Expr.parse t = .ok tree) :
    t.beforeBracket ≠ [] := by
  obtain ⟨c, rest, htrim, hc⟩ := exists_head_of_parse h
  cases t with
  | nil => cases htrim
  | cons d t =>
    by_cases hd : d = ']'
    · subst hd
      -- a bracket at the start is not trimmed
      have hprefix : Text.trim (']' :: t) <+: ']' :: t := Text.trimEnd_prefix (']' :: t)
      rw [htrim, List.cons_prefix_cons] at hprefix
      exact absurd hprefix.1 hc
    · rw [Text.beforeBracket, List.takeWhile_cons_of_pos (by simpa using hd)]
      exact List.cons_ne_nil _ _

private theorem trimStart_ne_nil_of_parse {t : Text} {tree : Expr} (h : Expr.parse t = .ok tree) :
    Text.trimStart t ≠ [] := by
  obtain ⟨c, rest, htrim, -⟩ := exists_head_of_parse h
  intro hnil
  rw [Text.trim, hnil] at htrim
  cases htrim

end Expr

section Finds

variable {a s : Text} (hne : a ≠ []) (hword : ∀ k ∈ a, Text.isWordChar k = true) (hs : s ≠ [])
  (hclass : ∀ k ∈ s, (k != ']') = true)

include hne hword hs hclass

/-- An array and its size. -/
private theorem finds_arrayItem (before : Option Char) (more : Text) :
    Finds Shape.arrayItem ⟨before, a ++ '[' :: (s ++ ']' :: more)⟩ (a, s) ⟨some ']', more⟩ := by
  refine (finds_run (b := '[' :: (s ++ ']' :: more)) rfl hne hword ?_).bind ?_
  · rintro k ⟨⟩
    decide
  refine (finds_someBlanks_of_none (head_of_not_blank (by decide))).bind ?_
  refine (finds_signs "[" _ (s ++ ']' :: more)).bind ?_
  refine (finds_run (b := ']' :: more) rfl hs hclass ?_).bind ?_
  · rintro k ⟨⟩
    decide
  refine (finds_signs "]" _ more).bind ?_
  exact finds_pure (Prod.ext (text_append a _) (text_append s _)) _

/-- The first array that is found in a list, and the others behind it. -/
private theorem exists_findAll_arrayItem (more : Text) :
    ∃ steps, Shape.arrayItem.findAll (a ++ '[' :: (s ++ ']' :: more)) =
      (a, s) :: Shape.arrayItem.findAllFrom steps ⟨some ']', more⟩ := by
  obtain ⟨steps, hsteps⟩ : ∃ steps, (a ++ '[' :: (s ++ ']' :: more)).length = steps + 1 :=
    Nat.exists_eq_succ_of_ne_zero (by simp)
  refine ⟨steps, ?_⟩
  have hfinds : (Shape.arrayItem (.start (a ++ '[' :: (s ++ ']' :: more)))).head? =
      some ((a, s), ⟨some ']', more⟩) := finds_arrayItem hne hword hs hclass none more
  rw [findAll, hsteps, findAllFrom, hfinds]

/-- An assignment to an element. -/
private theorem find?_assign_elementText {v : Text} (hv : Text.trimStart v ≠ []) :
    Shape.assign.find? (elementText a s v) = some ⟨a, some s, Text.trimStart v⟩ := by
  obtain ⟨k, rest, hk⟩ := List.exists_cons_of_ne_nil hv
  obtain ⟨bl, hbl, hsplit⟩ : ∃ bl, (∀ l ∈ bl, Text.isBlank l = true) ∧ ' ' :: v = bl ++ k :: rest :=
    ⟨' ' :: v.takeWhile Text.isBlank,
      List.forall_mem_cons.mpr ⟨by decide, fun l hl => List.mem_takeWhile_imp hl⟩, by
        rw [← hk, List.cons_append, Text.trimStart, List.takeWhile_append_dropWhile]⟩
  have hblank : Text.isBlank k = false := Text.head_trimStart (t := v) (by rw [hk]; rfl)
  refine Finds.find? (d := Cursor.past (k :: rest) ⟨bl.getLast?.or (some '-'), k :: rest⟩ []) ?_
  refine (finds_run (b := '[' :: (s ++ ("] <- ".toList ++ v))) rfl hne hword ?_).bind ?_
  · rintro k ⟨⟩
    decide
  refine (finds_someBlanks_of_none (head_of_not_blank (by decide))).bind ?_
  refine Finds.optional (Finds.bind (a := s) (d := ⟨some ']', ' ' :: ("<- ".toList ++ v)⟩) ?_ ?_)
  · refine (finds_signs "[" _ (s ++ ("] <- ".toList ++ v))).bind ?_
    refine (finds_run (b := "] <- ".toList ++ v) rfl hs hclass ?_).bind ?_
    · rintro k ⟨⟩
      decide
    refine (finds_signs "]" _ (" <- ".toList ++ v)).bind ?_
    exact finds_pure (text_append s _) _
  · refine (finds_someBlanks (head_of_not_blank rfl)).bind ?_
    refine (finds_arrow _ v).bind ?_
    rw [hsplit]
    refine (finds_someBlanks_append hbl (head_of_not_blank hblank)).bind ?_
    refine (finds_remainder _ k rest).bind ?_
    rw [hk]
    exact finds_pure (congrArg (fun name => (⟨name, some s, k :: rest⟩ : Shape.Assignment))
      (text_append a _)) _

end Finds

/-! ### Lines that define arrays -/

private theorem find?_dimension {list : Text} (hne : list ≠ [])
    (hhead : ∀ k ∈ list.head?, Text.isBlank k = false) :
    Shape.dimension.find? ("Dimension ".toList ++ list) = some list := by
  obtain ⟨k, rest, rfl⟩ := List.exists_cons_of_ne_nil hne
  refine Finds.find? (d := Cursor.past (k :: rest) ⟨some ' ', k :: rest⟩ []) ?_
  refine (finds_keyword (a := "Dimension".toList) (b := ' ' :: k :: rest) rfl).bind ?_
  refine (finds_blanks hhead).bind ?_
  exact (finds_remainder _ k rest).bind (finds_pure rfl _)

private theorem read_dimensionText (lines : List Line) (i : Nat) {a : Text} (e : Text)
    (hne : a ≠ []) (hword : ∀ k ∈ a, Text.isWordChar k = true) :
    Action.read lines i (dimensionText a e) = Action.readDimension (bracketText a e) := by
  have hmarker : Shape.marker.fits (dimensionText a e) = false := rfl
  have hdeclare : Shape.declare.find? (dimensionText a e) = none := rfl
  have hdimension : Shape.dimension.find? (dimensionText a e) = some (bracketText a e) :=
    find?_dimension (List.append_ne_nil_of_left_ne_nil hne _) fun k hk =>
      isBlank_head_bracket hword hk
  simp only [Action.read, hmarker, hdeclare, hdimension, if_neg Bool.false_ne_true]

section Read

variable (lines : List Line) (i : Nat) {a e v : Text} (hne : a ≠ [])
  (hword : ∀ k ∈ a, Text.isWordChar k = true)

include hword

private theorem read_elementText_of_notMem (hne : a ≠ []) (hmarks : ¬ MarksProgram a) (he : e ≠ [])
    (hopen : ']' ∉ e) (hv : Text.trimStart v ≠ []) :
    Action.read lines i (elementText a e v) =
      .assign (a ++ '[' :: e.trim ++ [']']) a (some e.trim) v.trim := by
  have hassign := find?_assign_elementText hne hword he (Text.ne_of_notMem hopen) hv
  rw [elementText, read_bracket hword lines i hmarks, ← elementText, hassign]
  simp only [Option.elim_some, Action.readAssign, Option.map_some, Text.trim_trimStart]

private theorem read_elementText_of_mem (hmarks : ¬ MarksProgram a) (hclosed : ']' ∈ e) :
    Action.read lines i (elementText a e v) = .skip ∨
      ∃ target source, Action.read lines i (elementText a e v) =
        .assign target a (some e.beforeBracket.trim) source := by
  obtain ⟨more, hmore⟩ := Text.exists_eq_beforeBracket hclosed
  have hcut : Text.beforeBracket (e ++ ("] <- ".toList ++ v)) = e.beforeBracket := by
    nth_rewrite 1 [hmore]
    rw [List.append_assoc, List.cons_append]
    exact Text.beforeBracket_append Text.ne_of_mem_beforeBracket _
  rw [elementText, read_bracket hword lines i hmarks]
  cases hfind : Shape.assign.find? (a ++ '[' :: (e ++ ("] <- ".toList ++ v))) with
  | none => exact .inl rfl
  | some found =>
    obtain ⟨x, hx, rfl⟩ := exists_mem_of_find? hfind
    obtain ⟨hname, hindex⟩ := index_of_mem_assign hword hx
    refine .inr ⟨a ++ '[' :: e.beforeBracket.trim ++ [']'], x.1.value.trim, ?_⟩
    simp only [Option.elim_some, Action.readAssign, hname, hindex, hcut, Option.map_some]

include hne

private theorem read_dimensionText_of_notMem (he : e ≠ []) (hopen : ']' ∉ e) :
    Action.read lines i (dimensionText a e) = .dimension [(a, e.trim)] (bracketText a e) := by
  obtain ⟨steps, hall⟩ := exists_findAll_arrayItem hne hword he (Text.ne_of_notMem hopen) []
  rw [findAllFrom_nil rfl] at hall
  rw [read_dimensionText lines i e hne hword, Action.readDimension, bracketText, hall]
  rfl

private theorem read_dimensionText_of_mem (he : e.beforeBracket ≠ []) (hclosed : ']' ∈ e) :
    ∃ more, Action.read lines i (dimensionText a e) =
      .dimension ((a, e.beforeBracket.trim) :: more) (bracketText a e) := by
  obtain ⟨more, hmore⟩ := Text.exists_eq_beforeBracket hclosed
  obtain ⟨steps, hall⟩ := exists_findAll_arrayItem hne hword he Text.ne_of_mem_beforeBracket
    (more ++ [']'])
  have hlist : bracketText a e = a ++ '[' :: (e.beforeBracket ++ ']' :: (more ++ [']'])) := by
    rw [bracketText]
    nth_rewrite 1 [hmore]
    rw [List.append_assoc, List.cons_append]
  rw [read_dimensionText lines i e hne hword, Action.readDimension, hlist, hall]
  exact ⟨_, rfl⟩

end Read

/-- **The reader of statements ends a bracket at the first closing bracket.** Let `a` be a word that
does not mark a program, and let `e` and `v` be expressions. If there is no closing bracket in `e`,
then `a[e] <- v` is the assignment of `v` to the element of `a` at `e`, and `Dimension a[e]` defines
the array `a` of the size `e` and no other. If there is one, then neither is so: what stands before
the first closing bracket, which is not `e`, is taken for the size, and it is taken for the index
unless the assignment is lost altogether. -/
theorem brackets_end_at_first (lines : List Line) (i : Nat) {a e v : Text} (hne : a ≠ [])
    (hword : ∀ k ∈ a, Text.isWordChar k = true) (hmarks : ¬ MarksProgram a) {index value : Expr}
    (he : Expr.parse e = .ok index) (hv : Expr.parse v = .ok value) :
    (']' ∉ e →
      Action.read lines i (elementText a e v) =
          .assign (a ++ '[' :: e.trim ++ [']']) a (some e.trim) v.trim ∧
        Action.read lines i (dimensionText a e) = .dimension [(a, e.trim)] (bracketText a e)) ∧
    (']' ∈ e →
      e.beforeBracket.trim ≠ e.trim ∧
        (Action.read lines i (elementText a e v) = .skip ∨
          ∃ target source, Action.read lines i (elementText a e v) =
            .assign target a (some e.beforeBracket.trim) source) ∧
        ∃ more, Action.read lines i (dimensionText a e) =
          .dimension ((a, e.beforeBracket.trim) :: more) (bracketText a e)) := by
  have hbefore : e.beforeBracket ≠ [] := Expr.beforeBracket_ne_nil_of_parse he
  constructor
  · intro hopen
    have he : e ≠ [] := by
      rintro rfl
      exact hbefore rfl
    have hv : Text.trimStart v ≠ [] := Expr.trimStart_ne_nil_of_parse hv
    exact ⟨read_elementText_of_notMem lines i hword hne hmarks he hopen hv,
      read_dimensionText_of_notMem lines i hne hword he hopen⟩
  · intro hclosed
    refine ⟨?_, read_elementText_of_mem lines i hword hmarks hclosed,
      read_dimensionText_of_mem lines i hne hword hbefore hclosed⟩
    -- the bracket is not blank, so that it is in the expression also when it is trimmed
    intro hsame
    have hmem : ']' ∈ e.beforeBracket.trim := hsame ▸ Text.mem_trim_of_mem hclosed (by decide)
    exact absurd (Text.ne_of_mem_beforeBracket _ (Text.mem_of_mem_trim hmem)) (by decide)

/-! ### An index that is an element -/

private theorem scan_nestedIndex :
    scan "b[1]".toList = .ok ⟨[⟨.word "b".toList, 1⟩, ⟨.bracket true, 2⟩,
      ⟨.number (.int 1), 3⟩, ⟨.bracket false, 4⟩], 5⟩ :=
  scan_of_tokensFrom (by decide +kernel)

private theorem parse_nestedIndex :
    Expr.parse "b[1]".toList = .ok (.element "b".toList (.number (.int 1))) := by
  rw [Grammar.parse_eq_of_scan scan_nestedIndex]
  rfl

private theorem parse_two : Expr.parse "2".toList = .ok (.number (.int 2)) := by
  have htokens : Token.tokensFrom 1 (Text.trim "2".toList) = .ok [⟨.number (.int 2), 1⟩] := by
    decide +kernel
  rw [Grammar.parse_eq_of_scan (scan_of_tokensFrom htokens)]
  rfl

/-- Even the word of a statement may be the name of the array. -/
theorem brackets_end_at_first_si :
    Action.read [] 0 (elementText "Si".toList "2".toList "b[1]".toList) =
        .assign ("Si".toList ++ '[' :: "2".toList ++ [']']) "Si".toList (some "2".toList)
          "b[1]".toList ∧
      ∃ more, Action.read [] 0 (dimensionText "Si".toList "b[1]".toList) =
        .dimension (("Si".toList, "b[1".toList) :: more)
          (bracketText "Si".toList "b[1]".toList) := by
  have hne : "Si".toList ≠ [] := by decide
  have hword : ∀ k ∈ "Si".toList, Text.isWordChar k = true :=
    List.all_eq_true.mp (by decide)
  have hmarks : ¬ MarksProgram "Si".toList := by decide
  have htwo : Text.trim "2".toList = "2".toList := by decide
  have hnested : Text.trim "b[1]".toList = "b[1]".toList := by decide
  have hcut : Text.trim (Text.beforeBracket "b[1]".toList) = "b[1".toList := by decide
  obtain ⟨hopen, -⟩ := brackets_end_at_first [] 0 hne hword hmarks parse_two parse_nestedIndex
  obtain ⟨-, hclosed⟩ := brackets_end_at_first [] 0 hne hword hmarks parse_nestedIndex parse_two
  have hassign := (hopen (by decide)).1
  have hdimension := (hclosed (by decide)).2.2
  rw [htwo, hnested] at hassign
  rw [hcut] at hdimension
  exact ⟨hassign, hdimension⟩

/-- **An element as an index.** The assignment is lost, and the array has another size. -/
theorem read_nestedIndex :
    Expr.parse "b[1]".toList = .ok (.element "b".toList (.number (.int 1))) ∧
      Action.read [⟨1, "a[b[1]] <- 2".toList⟩] 0 "a[b[1]] <- 2".toList = .skip ∧
      Action.read [⟨1, "Dimension a[b[1]]".toList⟩] 0 "Dimension a[b[1]]".toList =
        .dimension [("a".toList, "b[1".toList)] "a[b[1]]".toList := by
  have hword : ∀ k ∈ "a".toList, Text.isWordChar k = true :=
    List.all_eq_true.mp (by decide)
  have hassign : Shape.assign.find? "a[b[1]] <- 2".toList = none := by decide
  have hall : Shape.arrayItem.findAll "a[b[1]]".toList = [("a".toList, "b[1".toList)] := by
    decide
  have htrim : Text.trim "b[1".toList = "b[1".toList := by decide
  refine ⟨parse_nestedIndex, ?_, ?_⟩
  · have hread : Action.read [⟨1, "a[b[1]] <- 2".toList⟩] 0 "a[b[1]] <- 2".toList =
        (Shape.assign.find? "a[b[1]] <- 2".toList).elim .skip Action.readAssign :=
      read_bracket hword _ _ (by decide)
    rw [hread, hassign]
    rfl
  · have hread := read_dimensionText [⟨1, "Dimension a[b[1]]".toList⟩] 0 "b[1]".toList
      (by decide) hword
    rw [show bracketText "a".toList "b[1]".toList = "a[b[1]]".toList from rfl,
      show dimensionText "a".toList "b[1]".toList = "Dimension a[b[1]]".toList from rfl,
      Action.readDimension, hall] at hread
    simpa only [List.map_cons, List.map_nil, htrim] using hread

end Pseudocode
