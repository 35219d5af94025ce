import Mathlib.Logic.Relation
import Pseudocode.Proofs.Line.Literals

/-!
# The layout of a source text

A source text is a row of raw lines, each with a break behind it (`Text.Broken`). White space at the
ends of a line, comments, and lines that hold nothing else are matters of layout: `Line.Restyled`
says how the layout of one line may be changed, and `Line.Relaid` adds the lines that may be put in
between.

**Layout makes no difference to the texts of the lines that count**
(`Line.texts_ofSource_of_relaid`), only to their numbers, which always are the places of the raw
lines.

Everything that is done to a line after its comment is cut off depends on the trimmed text before
the comment (`Line.prepare_eq`). A change of layout adds or takes away blanks at the ends of this
text and nothing else, because a comment that is put behind a line starts outside of strings and
behind a blank, which no slash before it can make two slashes with.
-/

namespace Pseudocode

open Relation (ReflTransGen)

/-! ### Raw lines -/

namespace Text

variable {c : Char} {raw rest source : Text} {raws : List Text}

/-- No character of the text ends a line. -/
def Unbroken (t : Text) : Prop := ∀ c ∈ t, isLineBreak c = false

instance (t : Text) : Decidable (Unbroken t) :=
  decidable_of_iff (t.all (!isLineBreak ·) = true) (by simp [Unbroken])

/-- A break that ends a line, and the text behind it. A carriage return with a line feed behind it
does not end a line alone. -/
inductive Break : Text → Text → Prop where
  | pair (rest : Text) : Break ['\r', '\n'] rest
  | single {c : Char} {rest : Text} : isLineBreak c = true →
      (c = '\r' → rest.head? ≠ some '\n') → Break [c] rest

/-- A text consists of raw lines with breaks behind them. The break may be missing behind the last
line. -/
inductive Broken : List Text → Text → Prop where
  | nil : Broken [] []
  | last (raw : Text) : Broken [raw] raw
  | line {raw brk rest : Text} {raws : List Text} : Break brk rest → Broken raws rest →
      Broken (raw :: raws) (raw ++ (brk ++ rest))

/-- Any raw lines can be put together with line feeds. -/
private theorem broken_join (raws : List Text) : Broken raws (join ['\n'] raws) := by
  induction raws with
  | nil => exact .nil
  | cons raw raws ih =>
    cases raws with
    | nil => exact .last raw
    | cons next raws =>
      have hfeed : Break ['\n'] (join ['\n'] (next :: raws)) :=
        .single (by decide) fun h => absurd h (by decide)
      rw [join_cons_cons, List.append_assoc]
      exact .line hfeed ih

private theorem lines_cons_of_unbroken (hc : isLineBreak c = false) (t : Text) :
    lines (c :: t) = (c :: (lines t).headD []) :: (lines t).tail := by
  have hreturn : c ≠ '\r' := by
    rintro rfl
    revert hc
    decide
  rw [lines, if_neg (by simp [hc])]
  · cases lines t <;> rfl
  · exact fun _ h => absurd h hreturn

/-- A break ends a line. -/
private theorem Break.lines_append {brk : Text} (h : Break brk rest) :
    lines (brk ++ rest) = [] :: lines rest := by
  cases h with
  | pair => rw [List.cons_append, List.cons_append, List.nil_append, lines]
  | @single c _ hc hreturn =>
    rw [List.cons_append, List.nil_append, lines, if_pos hc]
    rintro more rfl rfl
    exact hreturn rfl rfl

/-- Characters that end no line belong to the first line of what follows. -/
private theorem lines_append_of_unbroken (hraw : Unbroken raw) {t line : Text} {more : List Text}
    (ht : lines t = line :: more) : lines (raw ++ t) = (raw ++ line) :: more := by
  induction raw with
  | nil => exact ht
  | cons c raw ih =>
    obtain ⟨hc, hraw⟩ := List.forall_mem_cons.mp hraw
    rw [List.cons_append, lines_cons_of_unbroken hc, ih hraw]
    rfl

private theorem lines_of_unbroken (hraw : Unbroken raw) (hne : raw ≠ []) : lines raw = [raw] := by
  induction raw with
  | nil => exact absurd rfl hne
  | cons c raw ih =>
    obtain ⟨hc, hraw⟩ := List.forall_mem_cons.mp hraw
    rw [lines_cons_of_unbroken hc]
    by_cases hnil : raw = []
    · rw [hnil, lines_nil]
      rfl
    · rw [ih hraw hnil]
      rfl

/-- **The lines of a text are the raw lines it consists of**, but for an empty one at the end. -/
theorem Broken.lines_eq (h : Broken raws source) (hraws : ∀ raw ∈ raws, Unbroken raw) :
    raws = lines source ∨ raws = lines source ++ [[]] := by
  induction h with
  | nil => exact .inl lines_nil.symm
  | last raw =>
    by_cases hnil : raw = []
    · exact .inr (by rw [hnil, lines_nil, List.nil_append])
    · exact .inl (lines_of_unbroken (hraws raw List.mem_cons_self) hnil).symm
  | @line raw brk rest raws hbreak _ ih =>
    obtain ⟨hraw, hraws⟩ := List.forall_mem_cons.mp hraws
    have hlines : lines (raw ++ (brk ++ rest)) = raw :: lines rest := by
      rw [lines_append_of_unbroken hraw hbreak.lines_append, List.append_nil]
    rw [hlines]
    exact (ih hraws).imp (congrArg (raw :: ·)) (congrArg (raw :: ·))

end Text

namespace Line

open Text

variable {raw raw' bl source : Text} {raws raws' : List Text} {n : Nat}

/-! ### Changes of layout -/

/-- A comment starts somewhere in the line. -/
def HasComment (raw : Text) : Prop := ∃ n, StartsComment none raw n

/-- A line of nothing but white space, or white space and a comment. -/
def Silent (raw : Text) : Prop :=
  ∃ bl rest, raw = bl ++ rest ∧ (∀ c ∈ bl, isBlank c = true) ∧
    (rest = [] ∨ ['/', '/'] <+: rest)

/-- A change of the layout of a line. -/
inductive Restyled : Text → Text → Prop where
  /-- The white space at the ends of the line is changed. -/
  | margins (u v u' v' code : Text) : (∀ c ∈ u ++ v, isBlank c = true) →
      (∀ c ∈ u' ++ v', isBlank c = true) → Unbroken (u' ++ v') →
      Restyled (u ++ (code ++ v)) (u' ++ (code ++ v'))
  /-- White space and a comment are put behind a line that has a comment already or does not end in
  an open string. -/
  | comment {raw : Text} (bl remark : Text) : HasComment raw ∨ raw.Closed → bl ≠ [] →
      (∀ c ∈ bl, isBlank c = true) → Unbroken (bl ++ remark) →
      Restyled raw (raw ++ (bl ++ '/' :: '/' :: remark))

/-- A change of the layout of a source text: each line may be changed any number of times, and
silent lines may be put in everywhere. -/
inductive Relaid : List Text → List Text → Prop where
  | nil : Relaid [] []
  | line {raw raw' : Text} {raws raws' : List Text} : ReflTransGen Restyled raw raw' →
      Relaid raws raws' → Relaid (raw :: raws) (raw' :: raws')
  | insert {raw : Text} {raws raws' : List Text} : Silent raw → Unbroken raw → Relaid raws raws' →
      Relaid raws (raw :: raws')

/-- A change of one line breaks no line. -/
private theorem Restyled.unbroken (h : Restyled raw raw') (hraw : Unbroken raw) :
    Unbroken raw' := by
  cases h with
  | margins _ _ _ _ code _ _ hmargins =>
    obtain ⟨-, hinner⟩ := List.forall_mem_append.mp hraw
    obtain ⟨hcode, -⟩ := List.forall_mem_append.mp hinner
    obtain ⟨hu, hv⟩ := List.forall_mem_append.mp hmargins
    exact List.forall_mem_append.mpr ⟨hu, List.forall_mem_append.mpr ⟨hcode, hv⟩⟩
  | comment bl remark _ _ _ hbehind =>
    obtain ⟨hbl, hremark⟩ := List.forall_mem_append.mp hbehind
    have hslashes : Unbroken ['/', '/'] := by decide
    exact List.forall_mem_append.mpr ⟨hraw, List.forall_mem_append.mpr ⟨hbl,
      List.forall_mem_append.mpr ⟨hslashes, hremark⟩⟩⟩

/-- A change of layout breaks no line. -/
private theorem Relaid.unbroken (h : Relaid raws raws') (hraws : ∀ raw ∈ raws, Unbroken raw) :
    ∀ raw ∈ raws', Unbroken raw := by
  induction h with
  | nil => exact hraws
  | line hrestyled _ ih =>
    obtain ⟨hraw, hraws⟩ := List.forall_mem_cons.mp hraws
    refine List.forall_mem_cons.mpr ⟨?_, ih hraws⟩
    induction hrestyled with
    | refl => exact hraw
    | tail _ hstep ih => exact hstep.unbroken ih
  | insert _ hraw _ ih => exact List.forall_mem_cons.mpr ⟨hraw, ih hraws⟩

/-! ### What a change of layout leaves -/

/-- Cutting off a comment before or after trimming makes no difference once the rest is trimmed. -/
private theorem trim_cutComment_trim (raw : Text) :
    (cutComment none raw.trim).trim = (cutComment none raw).trim := by
  obtain ⟨u, v, hcut, hu, hv⟩ := exists_cutComment_eq raw
  rw [hcut, trim_append_left hu, trim_append_right hv]

/-- **What counts of a line is made of the trimmed text before its comment.** -/
theorem prepare_eq (raw : Text) :
    prepare raw = blankSemicolons (dropSemicolon (cutComment none raw).trim).trimEnd := by
  rw [prepare, trim_cutComment_trim]

/-- What counts of a line depends only on the trimmed text before its comment. -/
private theorem prepare_eq_of_trim_eq
    (h : (cutComment none raw).trim = (cutComment none raw').trim) :
    prepare raw = prepare raw' := by
  rw [prepare_eq, prepare_eq, h]

private theorem HasComment.cutComment_ne (h : HasComment raw) : cutComment none raw ≠ raw := by
  intro hall
  obtain ⟨n, hopen, hslashes⟩ := h
  have hlt : n < raw.length := by
    by_contra hle
    rw [List.drop_eq_nil_of_le (Nat.not_lt.mp hle)] at hslashes
    exact absurd hslashes (by decide)
  have hbefore := beforeComment_cutComment none raw
  rw [hall] at hbefore
  exact hbefore.noComment n hlt ⟨hopen, hslashes⟩

/-- A comment behind a blank changes at most the blanks at the end of the text before the first
comment. -/
private theorem trim_cutComment_comment (hend : HasComment raw ∨ raw.Closed) (hne : bl ≠ [])
    (hbl : ∀ c ∈ bl, isBlank c = true) (remark : Text) :
    (cutComment none (raw ++ (bl ++ '/' :: '/' :: remark))).trim = (cutComment none raw).trim := by
  have hhead : (bl ++ '/' :: '/' :: remark).head? ≠ some '/' := by
    obtain ⟨b, bl, rfl⟩ := List.exists_cons_of_ne_nil hne
    rintro ⟨⟩
    exact absurd (hbl '/' List.mem_cons_self) (by decide)
  have hcomment : cutComment none ('/' :: '/' :: remark) = [] := by
    rw [cutComment_cons, if_pos ⟨rfl, remark, rfl⟩]
  rw [cutComment_append hhead]
  split
  · next hall =>
    -- the line has no comment, so that it ends outside of strings
    have hclosed : openQuote none raw = none := hend.resolve_left fun h => h.cutComment_ne hall
    rw [hclosed, cutComment_append_of_isBlank hbl, hcomment, List.append_nil, hall,
      trim_append_right hbl]
  · rfl

/-- One change of the layout of a line leaves what counts of it. -/
private theorem Restyled.prepare_eq (h : Restyled raw raw') : prepare raw' = prepare raw := by
  cases h with
  | margins _ _ _ _ code hmargins hmargins' _ =>
    obtain ⟨hu, hv⟩ := List.forall_mem_append.mp hmargins
    obtain ⟨hu', hv'⟩ := List.forall_mem_append.mp hmargins'
    rw [prepare, prepare, trim_append_left hu, trim_append_right hv, trim_append_left hu',
      trim_append_right hv']
  | comment bl remark hend hne hbl _ =>
    exact prepare_eq_of_trim_eq (trim_cutComment_comment hend hne hbl remark)

private theorem prepare_nil : prepare [] = [] := by
  simp [prepare, cutComment, dropSemicolon, blankSemicolons]

/-- Nothing counts of a silent line. -/
private theorem Silent.prepare_eq (h : Silent raw) : prepare raw = [] := by
  obtain ⟨bl, rest, rfl, hbl, hrest⟩ := h
  have hcut : cutComment none rest = [] := by
    rcases hrest with rfl | ⟨remark, rfl⟩
    · simp [cutComment]
    · exact (cutComment_cons none '/' _).trans (if_pos ⟨rfl, remark, rfl⟩)
  have htrim : (cutComment none (bl ++ rest)).trim = (cutComment none []).trim := by
    rw [cutComment_append_of_isBlank hbl, hcut, trim_append_left hbl]
    simp [cutComment]
  rw [prepare_eq_of_trim_eq htrim, prepare_nil]

/-! ### Texts and numbers -/

private theorem numberFrom_cons (n : Nat) (raw : Text) (raws : List Text) :
    numberFrom n (raw :: raws) =
      if prepare raw = [] then numberFrom (n + 1) raws
      else ⟨n, prepare raw⟩ :: numberFrom (n + 1) raws := by
  rw [numberFrom]
  split
  · next h => rw [if_pos h]
  · next h => rw [if_neg h]

/-- The texts of the lines are what counts of them, where anything does. -/
private theorem texts_numberFrom (n : Nat) (raws : List Text) :
    (numberFrom n raws).map Line.text = (raws.map prepare).filter (· ≠ []) := by
  induction raws generalizing n with
  | nil => rfl
  | cons raw raws ih =>
    rw [numberFrom_cons, List.map_cons, List.filter_cons]
    split
    · next h => simp [h, ih]
    · next h => simp [h, ih]

/-- **A change of layout leaves the texts that count.** -/
theorem Relaid.texts_eq (h : Relaid raws raws') :
    (raws'.map prepare).filter (· ≠ []) = (raws.map prepare).filter (· ≠ []) := by
  induction h with
  | nil => rfl
  | @line raw raw' _ _ hrestyled _ ih =>
    have hprepare : prepare raw' = prepare raw := by
      induction hrestyled with
      | refl => rfl
      | tail _ hstep ih => exact hstep.prepare_eq.trans ih
    rw [List.map_cons, List.map_cons, List.filter_cons, List.filter_cons, hprepare, ih]
  | insert hsilent _ _ ih =>
    rw [List.map_cons, hsilent.prepare_eq, List.filter_cons_of_neg (by simp), ih]

/-- The lines are those that count among raw lines, in order, each with the place of its raw line,
counted from one. -/
structure Numbered (raws : List Text) (ls : List Line) : Prop where
  mem_iff : ∀ l, l ∈ ls ↔
    ∃ k raw, raws[k]? = some raw ∧ prepare raw ≠ [] ∧ l = ⟨k + 1, prepare raw⟩
  sorted : ls.Pairwise fun l l' => l.number < l'.number

/-- A line has the number of the text that it was made of. -/
private theorem mem_numberFrom_iff {l : Line} : l ∈ numberFrom n raws ↔
    ∃ k raw, raws[k]? = some raw ∧ prepare raw ≠ [] ∧ l = ⟨n + k, prepare raw⟩ := by
  induction raws generalizing n with
  | nil => simp [numberFrom]
  | cons first raws ih =>
    have hlater : l ∈ numberFrom (n + 1) raws ↔ ∃ k raw, (first :: raws)[k + 1]? = some raw ∧
        prepare raw ≠ [] ∧ l = ⟨n + (k + 1), prepare raw⟩ := by
      simp only [ih, List.getElem?_cons_succ, Nat.add_assoc, Nat.add_comm 1]
    have hfirst : l ∈ numberFrom n (first :: raws) ↔
        (prepare first ≠ [] ∧ l = ⟨n, prepare first⟩) ∨ l ∈ numberFrom (n + 1) raws := by
      rw [numberFrom_cons]
      split
      · next h => simp [h]
      · next h => simp [h]
    rw [hfirst, hlater]
    constructor
    · rintro (⟨hne, rfl⟩ | ⟨k, raw, hk, hne, rfl⟩)
      · exact ⟨0, first, rfl, hne, rfl⟩
      · exact ⟨k + 1, raw, hk, hne, rfl⟩
    · rintro ⟨_ | k, raw, hk, hne, rfl⟩
      · obtain rfl := Option.some.inj hk
        exact .inl ⟨hne, rfl⟩
      · exact .inr ⟨k, raw, hk, hne, rfl⟩

/-- The numbers of the lines increase. -/
private theorem sorted_numberFrom (n : Nat) (raws : List Text) :
    (numberFrom n raws).Pairwise fun l l' => l.number < l'.number := by
  induction raws generalizing n with
  | nil => exact .nil
  | cons raw raws ih =>
    rw [numberFrom_cons]
    split
    · exact ih (n + 1)
    · refine List.pairwise_cons.mpr ⟨fun l hl => ?_, ih (n + 1)⟩
      obtain ⟨k, _, _, _, rfl⟩ := mem_numberFrom_iff.mp hl
      change n < n + 1 + k
      omega

private theorem numbered_numberFrom (raws : List Text) : Numbered raws (numberFrom 1 raws) where
  mem_iff l := by simp only [mem_numberFrom_iff, Nat.add_comm 1]
  sorted := sorted_numberFrom 1 raws

/-- An empty raw line at the end makes no difference. -/
private theorem numberFrom_append_nil (n : Nat) (raws : List Text) :
    numberFrom n (raws ++ [[]]) = numberFrom n raws := by
  induction raws generalizing n with
  | nil => rw [List.nil_append, numberFrom_cons, if_pos prepare_nil]; rfl
  | cons raw raws ih => rw [List.cons_append, numberFrom_cons, numberFrom_cons, ih]

/-- The lines of a source are made of the texts between its breaks. -/
private theorem ofSource_eq (h : Broken raws source) (hraws : ∀ raw ∈ raws, Unbroken raw) :
    ofSource source = numberFrom 1 raws := by
  rcases h.lines_eq hraws with hlines | hlines
  · rw [hlines, ofSource]
  · rw [hlines, numberFrom_append_nil, ofSource]

/-- **Layout and comments make no difference.** Take raw lines without breaks, and change their
layout: white space at the ends of lines, comments behind lines that have one already or do not end
in an open string, and blank lines and lines with a comment only in between. Then the same texts
count as before, in the same order. Before and after, the lines that count are numbered by the
places of their raw lines, in strictly increasing order. -/
theorem texts_ofSource_of_relaid {source' : Text} (hraws : ∀ raw ∈ raws, Unbroken raw)
    (h : Relaid raws raws') (hsource : Broken raws source) (hsource' : Broken raws' source') :
    (ofSource source').map Line.text = (ofSource source).map Line.text ∧
      Numbered raws (ofSource source) ∧ Numbered raws' (ofSource source') := by
  rw [ofSource_eq hsource hraws, ofSource_eq hsource' (h.unbroken hraws)]
  refine ⟨?_, numbered_numberFrom raws, numbered_numberFrom raws'⟩
  rw [texts_numberFrom, texts_numberFrom, h.texts_eq]

/-- Two lines, one with slashes in a string and outside, and one with a comment. -/
def tidyLines : List Text := ["Escribir 'a // b' / 2".toList, "x <- 1; // uno".toList]

/-- The same two lines, further in and with more comments, between silent lines. -/
def looseLines : List Text :=
  ["// \"hola".toList, "\t Escribir 'a // b' / 2  // 'c".toList, " ".toList,
    "x <- 1; // uno // dos".toList]

private theorem relaid_looseLines : Relaid tidyLines looseLines := by
  have hindent : Restyled "Escribir 'a // b' / 2".toList "\t Escribir 'a // b' / 2".toList :=
    .margins [] [] "\t ".toList [] "Escribir 'a // b' / 2".toList (List.forall_mem_nil _)
      (List.all_eq_true.mp (by decide)) (by decide)
  have hremark : Restyled "\t Escribir 'a // b' / 2".toList
      "\t Escribir 'a // b' / 2  // 'c".toList :=
    .comment "  ".toList " 'c".toList (.inr (by decide)) (by decide)
      (List.all_eq_true.mp (by decide)) (by decide)
  have hcomment : HasComment "x <- 1; // uno".toList := ⟨8, by decide, by decide⟩
  have hsecond : Restyled "x <- 1; // uno".toList "x <- 1; // uno // dos".toList :=
    .comment " ".toList " dos".toList (.inl hcomment) (by decide)
      (List.all_eq_true.mp (by decide)) (by decide)
  have hsilent : Silent "// \"hola".toList := ⟨[], _, rfl, List.forall_mem_nil _, .inr (by decide)⟩
  have hblank : Silent " ".toList :=
    ⟨" ".toList, [], rfl, List.all_eq_true.mp (by decide), .inl rfl⟩
  exact .insert hsilent (by decide) (.line (.tail (.single hindent) hremark)
    (.insert hblank (by decide) (.line (.single hsecond) .nil)))

/-- A program that is laid out in another way, with blanks, comments and empty lines. -/
theorem texts_ofSource_looseLines :
    (ofSource (join ['\n'] looseLines)).map Line.text =
        (ofSource (join ['\n'] tidyLines)).map Line.text ∧
      Numbered looseLines (ofSource (join ['\n'] looseLines)) := by
  have hraws : ∀ raw ∈ tidyLines, Unbroken raw := by
    simp only [tidyLines, List.forall_mem_cons]
    exact ⟨by decide, by decide, List.forall_mem_nil _⟩
  obtain ⟨htexts, -, hnumbered⟩ := texts_ofSource_of_relaid hraws relaid_looseLines
    (broken_join tidyLines) (broken_join looseLines)
  exact ⟨htexts, hnumbered⟩

end Line

end Pseudocode
