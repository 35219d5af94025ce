import Pseudocode.Line
import Pseudocode.Proofs.Pattern.Ways
import Pseudocode.Proofs.Text.Literals

/-!
# The literals of a line

What counts of a raw line is made in four steps: white space is cut off at both ends, a comment is
cut off, a semicolon at the end is dropped, and semicolons before the word `Entonces` give way to
blanks. Only the second step looks at quotes. This module follows the quoted literals of a line
through all of them.

The first three steps cut pieces without quotes off the ends of the text, if every quote before the
comment is closed, so they keep all literals. The last step goes through literals like through any
other text. **A literal becomes what the last step makes of it on its own** (`literals_prepare`): no
two literals are merged and none is cut apart, but a literal in which a semicolon stands before the
word `Entonces` loses this semicolon.
-/

namespace Pseudocode

namespace Line

open Text

variable {raw code t u bl word behind rest : Text} {c k : Char} {quote : Option Char}

/-! ### Comments -/

/-- A comment starts at the position: two slashes outside of strings. `quote` is the quote of the
string that is open before the text. -/
def StartsComment (quote : Option Char) (raw : Text) (n : Nat) : Prop :=
  openQuote quote (raw.take n) = none ∧ ['/', '/'] <+: raw.drop n

/-- The text is what stands before the first comment, or everything if there is none. -/
structure BeforeComment (quote : Option Char) (raw code : Text) : Prop where
  front : code <+: raw
  noComment : ∀ n < code.length, ¬ StartsComment quote raw n
  ends : code = raw ∨ StartsComment quote raw code.length

/-- A text is cut at two slashes outside of strings. -/
theorem cutComment_cons (quote : Option Char) (c : Char) (rest : Text) :
    cutComment quote (c :: rest) =
      if quote = none ∧ ['/', '/'] <+: c :: rest then []
      else c :: cutComment (quotePast quote c) rest := by
  cases quote with
  | some q =>
    have hinside : ¬ (some q = none ∧ ['/', '/'] <+: c :: rest) :=
      fun h => Option.some_ne_none q h.1
    rw [if_neg hinside, cutComment, quotePast]
  | none =>
    have hslashes : ['/', '/'] <+: c :: rest ↔ (c == '/' && rest.head? == some '/') = true := by
      cases rest with
      | nil => simp
      | cons d rest =>
        simp only [List.cons_prefix_cons, List.nil_prefix, and_true, List.head?_cons,
          Bool.and_eq_true, beq_iff_eq, Option.some.injEq]
        exact and_congr eq_comm eq_comm
    have hquote (h : isQuote c = true) : ¬ ['/', '/'] <+: c :: rest := by
      rintro ⟨more, hmore⟩
      obtain ⟨rfl, -⟩ := List.cons.inj hmore
      revert h
      decide
    rw [cutComment, quotePast]
    split
    · next hc =>
      rw [if_neg fun h => hquote hc h.2]
    · split
      · next hcomment => rw [if_pos ⟨rfl, hslashes.mpr hcomment⟩]
      · next hcomment => rw [if_neg fun h => hcomment (hslashes.mp h.2)]

/-- Where a comment starts behind the first character. -/
private theorem startsComment_succ (quote : Option Char) (c : Char) (rest : Text) (n : Nat) :
    StartsComment quote (c :: rest) (n + 1) ↔ StartsComment (quotePast quote c) rest n := by
  rw [StartsComment, StartsComment, List.take_succ_cons, List.drop_succ_cons, openQuote,
    List.foldl_cons]
  rfl

private theorem startsComment_zero (quote : Option Char) (raw : Text) :
    StartsComment quote raw 0 ↔ quote = none ∧ ['/', '/'] <+: raw :=
  Iff.rfl

/-- What is left of a line is what is before its first comment. -/
theorem beforeComment_cutComment (quote : Option Char) (raw : Text) :
    BeforeComment quote raw (cutComment quote raw) := by
  induction raw generalizing quote with
  | nil => exact ⟨by simp [cutComment], by simp [cutComment], .inl (by simp [cutComment])⟩
  | cons c rest ih =>
    obtain ⟨hfront, hnone, hends⟩ := ih (quotePast quote c)
    rw [cutComment_cons]
    split
    · next h => exact ⟨List.nil_prefix, fun n hn => absurd hn (Nat.not_lt_zero n),
        .inr ((startsComment_zero _ _).mpr h)⟩
    · next h =>
      refine ⟨List.cons_prefix_cons.mpr ⟨rfl, hfront⟩, fun n hn => ?_, ?_⟩
      · cases n with
        | zero => exact h
        | succ n =>
          rw [startsComment_succ]
          exact hnone n (Nat.lt_of_succ_lt_succ hn)
      · rw [List.length_cons, startsComment_succ]
        exact hends.imp (congrArg (c :: ·)) id

/-- There is one text before the first comment. -/
private theorem BeforeComment.unique {code' : Text} (h : BeforeComment quote raw code)
    (h' : BeforeComment quote raw code') : code = code' := by
  have hshorter {s s' : Text} (hs : BeforeComment quote raw s) (hs' : BeforeComment quote raw s') :
      s'.length ≤ s.length := by
    rcases hs.ends with rfl | hstarts
    · exact hs'.front.length_le
    · exact Nat.le_of_not_lt fun hlt => hs'.noComment _ hlt hstarts
  have hlength : code.length = code'.length := Nat.le_antisymm (hshorter h' h) (hshorter h h')
  rw [List.prefix_iff_eq_take.mp h.front, List.prefix_iff_eq_take.mp h'.front, hlength]

/-- **Cutting off a comment leaves what stands before the first one.** -/
theorem beforeComment_iff : BeforeComment quote raw code ↔ cutComment quote raw = code :=
  ⟨fun h => (beforeComment_cutComment quote raw).unique h,
    fun h => h ▸ beforeComment_cutComment quote raw⟩

private theorem not_slashes_of_isBlank (hc : isBlank c = true) : ¬ ['/', '/'] <+: c :: rest := by
  rintro ⟨more, hmore⟩
  obtain ⟨rfl, -⟩ := List.cons.inj hmore
  revert hc
  decide

/-- Blanks before the text open no string and no comment. -/
theorem cutComment_append_of_isBlank (hbl : ∀ c ∈ bl, isBlank c = true) (t : Text) :
    cutComment none (bl ++ t) = bl ++ cutComment none t := by
  induction bl with
  | nil => rfl
  | cons c bl ih =>
    obtain ⟨hc, hrest⟩ := List.forall_mem_cons.mp hbl
    have hquote : isQuote c = false := unquoted_of_isBlank hbl c List.mem_cons_self
    have hpast : quotePast none c = none := if_neg (by simp [hquote])
    rw [List.cons_append, cutComment_cons, if_neg fun h => not_slashes_of_isBlank hc h.2, hpast,
      ih hrest, List.cons_append]

/-- Blanks hold no comment, inside of strings or outside. -/
private theorem cutComment_of_isBlank (hbl : ∀ c ∈ bl, isBlank c = true) (quote : Option Char) :
    cutComment quote bl = bl := by
  induction bl generalizing quote with
  | nil => simp [cutComment]
  | cons c bl ih =>
    obtain ⟨hc, hrest⟩ := List.forall_mem_cons.mp hbl
    rw [cutComment_cons, if_neg fun h => not_slashes_of_isBlank hc h.2, ih hrest]

/-- **A text with more behind it** is cut at its own comment, or else where the rest is cut. The
rest must not complete two slashes. -/
theorem cutComment_append (hu : u.head? ≠ some '/') (quote : Option Char) (t : Text) :
    cutComment quote (t ++ u) =
      if cutComment quote t = t then t ++ cutComment (openQuote quote t) u
      else cutComment quote t := by
  induction t generalizing quote with
  | nil =>
    have hnil : cutComment quote [] = [] := by simp [cutComment]
    rw [if_pos hnil]
    rfl
  | cons c t ih =>
    have hslashes : ['/', '/'] <+: c :: (t ++ u) ↔ ['/', '/'] <+: c :: t := by
      cases t with
      | cons d t => simp [List.cons_prefix_cons]
      | nil =>
        cases u with
        | nil => rfl
        | cons d u =>
          have hd : '/' ≠ d := fun hd => hu (congrArg some hd.symm)
          simp [List.cons_prefix_cons, hd]
    rw [List.cons_append, cutComment_cons, cutComment_cons quote c t]
    simp only [hslashes]
    split
    · exact (if_neg (List.cons_ne_nil c t).symm).symm
    · simp only [ih, List.cons.injEq, true_and]
      split <;> rfl

/-- Blanks behind the text are cut off with a comment, or they stay. -/
private theorem cutComment_append_isBlank (quote : Option Char) (t : Text)
    (hbl : ∀ c ∈ bl, isBlank c = true) : ∃ v, (v = [] ∨ v = bl) ∧
      cutComment quote (t ++ bl) = cutComment quote t ++ v := by
  have hslash : bl.head? ≠ some '/' := fun hhead =>
    absurd (hbl '/' (List.mem_of_mem_head? hhead)) (by decide)
  rw [cutComment_append hslash, cutComment_of_isBlank hbl]
  split
  · next hall => exact ⟨bl, .inr rfl, by rw [hall]⟩
  · exact ⟨[], .inl rfl, (List.append_nil _).symm⟩

/-- **Trimming before a comment is cut off** takes only blanks away from what stays. -/
theorem exists_cutComment_eq (raw : Text) :
    ∃ u v, cutComment none raw = u ++ (cutComment none raw.trim ++ v) ∧
      (∀ c ∈ u, isBlank c = true) ∧ ∀ c ∈ v, isBlank c = true := by
  obtain ⟨v, hv, hblank⟩ := exists_eq_trimEnd_append raw.trimStart
  obtain ⟨v', hv', hcut⟩ := cutComment_append_isBlank none raw.trim hblank
  have hfront : ∀ c ∈ raw.takeWhile isBlank, isBlank c = true :=
    fun c hc => List.mem_takeWhile_imp hc
  refine ⟨raw.takeWhile isBlank, v', ?_, hfront, ?_⟩
  · rw [← hcut, ← cutComment_append_of_isBlank hfront, trim, ← hv, trimStart,
      List.takeWhile_append_dropWhile]
  · rcases hv' with rfl | rfl
    · exact List.forall_mem_nil _
    · exact hblank

/-- Trimming first puts a frame around what is left when a comment is cut off. -/
private theorem framed_cutComment_trim (raw : Text) :
    Framed (cutComment none raw.trim) (cutComment none raw) := by
  obtain ⟨u, v, hcut, hu, hv⟩ := exists_cutComment_eq raw
  exact ⟨u, v, hcut, unquoted_of_isBlank hu, unquoted_of_isBlank hv⟩

/-- A semicolon at the end is a frame. -/
private theorem framed_dropSemicolon (t : Text) : Framed (dropSemicolon t) t := by
  rw [dropSemicolon]
  split
  · next h =>
    obtain ⟨front, rfl⟩ := List.getLast?_eq_some_iff.mp h
    rw [List.dropLast_concat]
    exact ⟨[], [';'], rfl, List.forall_mem_nil _, by simp [Unquoted]; decide⟩
  · exact ⟨[], [], by simp, List.forall_mem_nil _, List.forall_mem_nil _⟩

/-! ### Semicolons before a word -/

private theorem blankSemicolons_of_ne (hc : c ≠ ';') (rest : Text) :
    blankSemicolons (c :: rest) = c :: blankSemicolons rest := by
  rw [blankSemicolons, if_neg hc]

private theorem blankSemicolons_of_some
    (h : Pattern.keyword? thenWord (rest.dropWhile isBlank) = some (word, behind)) :
    blankSemicolons (';' :: rest) = ' ' :: (word ++ blankSemicolons behind) := by
  rw [blankSemicolons, if_pos rfl]
  split
  · next w b hw =>
    obtain ⟨rfl, rfl⟩ := Prod.mk.inj (Option.some.inj (hw.symm.trans h))
    rfl
  · next hnone => cases hnone.symm.trans h

private theorem blankSemicolons_of_none
    (h : Pattern.keyword? thenWord (rest.dropWhile isBlank) = none) :
    blankSemicolons (';' :: rest) = ';' :: blankSemicolons rest := by
  rw [blankSemicolons, if_pos rfl]
  split
  · next w b hw => cases hw.symm.trans h
  · rfl

private theorem isWordChar_of_isQuote (hk : isQuote k = true) : isWordChar k = false := by
  rcases (Bool.or_eq_true _ _).mp hk with hk | hk <;> rw [eq_of_beq hk] <;> decide

private theorem isBlank_of_isQuote (hk : isQuote k = true) : isBlank k = false := by
  rcases (Bool.or_eq_true _ _).mp hk with hk | hk <;> rw [eq_of_beq hk] <;> decide

private theorem isKeyLetter_of_mem_thenWord : ∀ c ∈ thenWord, IsKeyLetter c :=
  List.forall_iff_forall_mem.mp (by decide)

/-- The word stands at the start of a text whether or not there is a quote further on. -/
private theorem keyword?_append_isQuote (hk : isQuote k = true) (t rest : Text) :
    Pattern.keyword? thenWord (t ++ k :: rest) =
      (Pattern.keyword? thenWord t).map fun found => (found.1, found.2 ++ k :: rest) := by
  cases hfound : Pattern.keyword? thenWord t with
  | some found =>
    obtain ⟨rfl, hword⟩ := Pattern.keyword?_eq_some_iff.mp hfound
    rw [Option.map_some]
    exact Pattern.keyword?_eq_some_iff.mpr ⟨List.append_assoc _ _ _, hword⟩
  | none =>
    rw [Option.map_none, Option.eq_none_iff_forall_not_mem]
    rintro ⟨word, behind⟩ hsome
    obtain ⟨happend, hword⟩ := Pattern.keyword?_eq_some_iff.mp hsome
    -- the word holds no quote, so that it ends before it
    have hletters : ∀ c ∈ word, isWordChar c = true :=
      Pattern.isWordChar_of_map_foldKeyword hword isKeyLetter_of_mem_thenWord
    obtain ⟨t', rfl, -⟩ :=
      Pattern.exists_of_append_eq happend.symm hletters (isWordChar_of_isQuote hk)
    cases hfound.symm.trans (Pattern.keyword?_eq_some_iff.mpr ⟨rfl, hword⟩)

private theorem dropWhile_isBlank_append (hk : isQuote k = true) (t rest : Text) :
    (t ++ k :: rest).dropWhile isBlank = t.dropWhile isBlank ++ k :: rest := by
  rw [List.dropWhile_append]
  split
  · next hempty =>
    rw [List.isEmpty_iff.mp hempty, List.nil_append,
      List.dropWhile_cons_of_neg (by simp [isBlank_of_isQuote hk])]
  · rfl

/-- **Semicolons are replaced on each side of a quote by themselves.** -/
theorem blankSemicolons_append_isQuote (hk : isQuote k = true) (t rest : Text) :
    blankSemicolons (t ++ k :: rest) = blankSemicolons t ++ k :: blankSemicolons rest := by
  fun_induction blankSemicolons t with
  | case1 =>
    have hne : k ≠ ';' := by
      rintro rfl
      revert hk
      decide
    exact blankSemicolons_of_ne hne rest
  | case2 t word behind hword _ ih =>
    have happend : Pattern.keyword? thenWord ((t ++ k :: rest).dropWhile isBlank) =
        some (word, behind ++ k :: rest) := by
      rw [dropWhile_isBlank_append hk, keyword?_append_isQuote hk, hword, Option.map_some]
    rw [List.cons_append, blankSemicolons_of_some happend, ih]
    simp
  | case3 t hnone ih =>
    have happend : Pattern.keyword? thenWord ((t ++ k :: rest).dropWhile isBlank) = none := by
      rw [dropWhile_isBlank_append hk, keyword?_append_isQuote hk, hnone, Option.map_none]
    rw [List.cons_append, blankSemicolons_of_none happend, ih, List.cons_append]
  | case4 c t hc ih =>
    rw [List.cons_append, blankSemicolons_of_ne hc, ih, List.cons_append]

/-- Nothing but blanks is put into a text. -/
private theorem mem_of_mem_blankSemicolons (h : c ∈ blankSemicolons t) : c ∈ t ∨ c = ' ' := by
  fun_induction blankSemicolons t with
  | case1 => cases h
  | case2 t word behind hword _ ih =>
    obtain ⟨hrest, -⟩ := Pattern.keyword?_eq_some_iff.mp hword
    have hmem (hc : c ∈ word ++ behind) : c ∈ ';' :: t := by
      rw [← hrest] at hc
      exact List.mem_cons_of_mem _ ((List.dropWhile_suffix _).mem hc)
    rcases List.mem_cons.mp h with hc | h
    · exact .inr hc
    · rcases List.mem_append.mp h with hc | hc
      · exact .inl (hmem (List.mem_append_left _ hc))
      · exact (ih hc).imp_left fun hc => hmem (List.mem_append_right _ hc)
  | case3 t _ ih =>
    rcases List.mem_cons.mp h with rfl | h
    · exact .inl List.mem_cons_self
    · exact (ih h).imp_left (List.mem_cons_of_mem _)
  | case4 d t _ ih =>
    rcases List.mem_cons.mp h with rfl | h
    · exact .inl List.mem_cons_self
    · exact (ih h).imp_left (List.mem_cons_of_mem _)

private theorem blankSemicolons_append (hu : ∀ c ∈ u, c ≠ ';') (t : Text) :
    blankSemicolons (u ++ t) = u ++ blankSemicolons t := by
  induction u with
  | nil => rfl
  | cons c u ih =>
    obtain ⟨hc, hu⟩ := List.forall_mem_cons.mp hu
    rw [List.cons_append, blankSemicolons_of_ne hc, ih hu, List.cons_append]

/-- **Replacing semicolons keeps literals apart**: each of them becomes what it becomes on its
own. -/
theorem quoting_blankSemicolons {ls : List Text} (h : Quoting t ls) :
    Quoting (blankSemicolons t) (ls.map blankSemicolons) := by
  induction h with
  | nil =>
    rw [blankSemicolons]
    exact .nil
  | @plain c t ls hc _ ih =>
    by_cases hsemicolon : c = ';'
    · subst hsemicolon
      cases hfound : Pattern.keyword? thenWord (t.dropWhile isBlank) with
      | none =>
        rw [blankSemicolons_of_none hfound]
        exact .plain hc ih
      | some found =>
        obtain ⟨word, behind⟩ := found
        obtain ⟨hrest, hword⟩ := Pattern.keyword?_eq_some_iff.mp hfound
        -- nothing is replaced in the blanks and in the word, so they only have to be cut off
        have hblanks : ∀ c ∈ t.takeWhile isBlank, isBlank c = true :=
          fun c hc => List.mem_takeWhile_imp hc
        have hletters : ∀ c ∈ word, isWordChar c = true :=
          Pattern.isWordChar_of_map_foldKeyword hword isKeyLetter_of_mem_thenWord
        have htext : blankSemicolons t =
            t.takeWhile isBlank ++ (word ++ blankSemicolons behind) := by
          rw [← blankSemicolons_append fun c hc => ?_, ← blankSemicolons_append fun c hc => ?_,
            ← hrest, List.takeWhile_append_dropWhile]
          · rintro rfl
            exact absurd (hblanks _ hc) (by decide)
          · rintro rfl
            exact absurd (hletters _ hc) (by decide)
        rw [htext] at ih
        rw [blankSemicolons_of_some hfound]
        exact .plain (by decide) (ih.of_append (unquoted_of_isBlank hblanks))
    · rw [blankSemicolons_of_ne hsemicolon]
      exact .plain hc ih
  | @literal q content t ls hq hcontent _ ih =>
    have hne : q ≠ ';' := by
      rintro rfl
      revert hq
      decide
    have hnil : blankSemicolons [] = [] := by rw [blankSemicolons]
    have hinside : q ∉ blankSemicolons content := fun hmem => by
      rcases mem_of_mem_blankSemicolons hmem with hmem | rfl
      · exact hcontent hmem
      · revert hq
        decide
    rw [List.map_cons, blankSemicolons_of_ne hne, blankSemicolons_of_ne hne,
      blankSemicolons_append_isQuote hq, blankSemicolons_append_isQuote hq, hnil]
    exact .literal hq hinside ih

/-- A semicolon, blanks and the word `Entonces` stand in the text. -/
def HoldsThen (t : Text) : Prop :=
  ∃ a bl word b, t = a ++ ';' :: (bl ++ (word ++ b)) ∧ (∀ c ∈ bl, isBlank c = true) ∧
    word.map foldKeyword = thenWord

/-- The word is found behind a semicolon exactly if it stands there. -/
private theorem exists_keyword?_iff :
    (∃ found, Pattern.keyword? thenWord (rest.dropWhile isBlank) = some found) ↔
    ∃ bl word b, rest = bl ++ (word ++ b) ∧ (∀ c ∈ bl, isBlank c = true) ∧
      word.map foldKeyword = thenWord := by
  constructor
  · rintro ⟨⟨word, b⟩, hfound⟩
    obtain ⟨hrest, hword⟩ := Pattern.keyword?_eq_some_iff.mp hfound
    refine ⟨rest.takeWhile isBlank, word, b, ?_, fun c hc => List.mem_takeWhile_imp hc, hword⟩
    rw [← hrest, List.takeWhile_append_dropWhile]
  · rintro ⟨bl, word, b, rfl, hbl, hword⟩
    have hletters : ∀ c ∈ word, isWordChar c = true :=
      Pattern.isWordChar_of_map_foldKeyword hword isKeyLetter_of_mem_thenWord
    have hdrop : (bl ++ (word ++ b)).dropWhile isBlank = word ++ b := by
      cases word with
      | nil => cases hword
      | cons c word =>
        have hc : isBlank c = false :=
          isBlank_eq_false_of_isWordChar (hletters c List.mem_cons_self)
        rw [List.dropWhile_append_of_pos hbl, List.cons_append,
          List.dropWhile_cons_of_neg (by simp [hc])]
    exact ⟨(word, b), by rw [hdrop]; exact Pattern.keyword?_eq_some_iff.mpr ⟨rfl, hword⟩⟩

/-- A semicolon in front of `Entonces` is at the start of the text or behind it. -/
private theorem holdsThen_cons_iff : HoldsThen (c :: rest) ↔
    (c = ';' ∧ ∃ found, Pattern.keyword? thenWord (rest.dropWhile isBlank) = some found) ∨
      HoldsThen rest := by
  rw [exists_keyword?_iff]
  constructor
  · rintro ⟨a, bl, word, b, htext, hbl, hword⟩
    cases a with
    | nil =>
      obtain ⟨rfl, rfl⟩ := List.cons.inj htext
      exact .inl ⟨rfl, bl, word, b, rfl, hbl, hword⟩
    | cons d a =>
      obtain ⟨rfl, rfl⟩ := List.cons.inj htext
      exact .inr ⟨a, bl, word, b, rfl, hbl, hword⟩
  · rintro (⟨rfl, bl, word, b, rfl, hbl, hword⟩ | ⟨a, bl, word, b, rfl, hbl, hword⟩)
    · exact ⟨[], bl, word, b, rfl, hbl, hword⟩
    · exact ⟨c :: a, bl, word, b, rfl, hbl, hword⟩

/-- **A text stays as it is exactly if no semicolon in it stands before the word.** -/
theorem blankSemicolons_eq_self_iff : blankSemicolons t = t ↔ ¬ HoldsThen t := by
  fun_induction blankSemicolons t with
  | case1 =>
    refine iff_of_true rfl ?_
    rintro ⟨a, bl, word, b, htext, -⟩
    cases a <;> cases htext
  | case2 t word behind hword _ _ =>
    refine iff_of_false (fun heq => ?_) (not_not_intro ?_)
    · exact absurd (List.cons.inj heq).1 (by decide)
    · exact holdsThen_cons_iff.mpr (.inl ⟨rfl, _, hword⟩)
  | case3 t hnone ih =>
    rw [holdsThen_cons_iff, hnone, List.cons.injEq, ih]
    simp
  | case4 c t hc ih =>
    rw [holdsThen_cons_iff, List.cons.injEq, ih]
    simp [hc]

/-! ### What counts of a line -/

/-- **What becomes of the literals of a line.** Let every quote before the comment be closed. Then
so it is in what counts of the line, and the literals there are those before the comment, each with
its own semicolons before `Entonces` replaced. They are the same, character for character, exactly
if no literal holds such a semicolon. -/
theorem literals_prepare (hcode : BeforeComment none raw code) (hclosed : code.Closed) :
    (prepare raw).Closed ∧ (prepare raw).literals = code.literals.map blankSemicolons ∧
      ((prepare raw).literals = code.literals ↔ ∀ t ∈ code.literals, ¬ HoldsThen t) := by
  obtain rfl := beforeComment_iff.mp hcode
  have hframed : Framed (dropSemicolon (cutComment none raw.trim).trim).trimEnd
      (cutComment none raw) :=
    (((framed_trimEnd _).trans (framed_dropSemicolon _)).trans (framed_trim _)).trans
      (framed_cutComment_trim raw)
  obtain ⟨hinner, hliterals⟩ := hframed.literals_eq hclosed
  have hquoting := quoting_blankSemicolons hinner.quoting
  have hprepare : (prepare raw).literals = (cutComment none raw).literals.map blankSemicolons := by
    rw [← hliterals]
    exact hquoting.literals_eq
  refine ⟨hquoting.closed, hprepare, ?_⟩
  have hsame : (cutComment none raw).literals.map blankSemicolons = (cutComment none raw).literals ↔
      ∀ t ∈ (cutComment none raw).literals, blankSemicolons t = t := by
    have hmap := @List.map_inj_left _ _ (cutComment none raw).literals blankSemicolons id
    rwa [List.map_id] at hmap
  rw [hprepare, hsame]
  exact forall₂_congr fun t _ => blankSemicolons_eq_self_iff

/-- A line with two literals, one of which holds what looks like a comment, and a comment with an
open quote. -/
def commentedLine : Text := "  Escribir \"a; b // c\", 'entonces'; // \"d".toList

/-- A line with semicolons, slashes and a keyword in its strings, all of which stay. -/
theorem literals_prepare_commentedLine :
    BeforeComment none commentedLine "  Escribir \"a; b // c\", 'entonces'; ".toList ∧
      (prepare commentedLine).literals = ["\"a; b // c\"".toList, "'entonces'".toList] := by
  have hcode : BeforeComment none commentedLine "  Escribir \"a; b // c\", 'entonces'; ".toList :=
    beforeComment_iff.mpr (by decide)
  have hliterals : literals "  Escribir \"a; b // c\", 'entonces'; ".toList =
      ["\"a; b // c\"".toList, "'entonces'".toList] := by decide
  refine ⟨hcode, ?_⟩
  rw [(literals_prepare hcode (by decide)).2.1, hliterals]
  decide +kernel

/-- A line with a semicolon before the word inside a literal. -/
def thenLine : Text := "Escribir \"a; entonces b\"".toList

/-- **A literal can lose a semicolon.** -/
theorem literals_prepare_thenLine :
    BeforeComment none thenLine thenLine ∧ thenLine.Closed ∧
      thenLine.literals = ["\"a; entonces b\"".toList] ∧
      (prepare thenLine).literals = ["\"a entonces b\"".toList] := by
  exact ⟨beforeComment_iff.mpr (by decide), by decide, by decide,
    by decide +kernel⟩

end Line

end Pseudocode
