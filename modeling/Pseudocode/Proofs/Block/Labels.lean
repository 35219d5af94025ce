import Pseudocode.Proofs.Binary64.Nearest
import Pseudocode.Proofs.Block.Groups
import Pseudocode.Proofs.Pattern.Ways
import Pseudocode.Proofs.Text.Split
import Pseudocode.Proofs.Token.Written

/-!
# Case labels as they are written

A case label lists values: integers in decimal notation and texts in double quotes, with a comma and
a blank between neighbours and a colon at the end (`Cases.writtenLabel`). Such a line at the level
of a choice is a case of it, and one case only. The question is whether its values are those that
were written.

They are, for **exactly the labels whose texts hold no comma and whose integers are doubles**
(`Cases.LabelItem.IsKept`). A label is cut at all its commas, also at those between quotes, so a
text with a comma makes for more values than were written; and an integer is read through a double,
so one that lies between two doubles becomes one of them.

The cut at the commas is that of `Text.splitAt`. The reading of a single value and the shape of the
whole line have sections of their own.
-/

namespace Pseudocode

/-! ### Integers in decimal notation -/

namespace Text

variable {n : Int}

private theorem ofInt_eq (n : Int) :
    ofInt n = if n < 0 then '-' :: ofNat n.natAbs else ofNat n.natAbs := by
  cases n with
  | ofNat m => rfl
  | negSucc m => rw [if_pos (Int.negSucc_lt_zero m)]; rfl

/-- What holds of the minus sign and of the digits of ASCII holds of every character of an
integer. -/
private theorem forall_mem_ofInt {p : Char → Bool} (hminus : p '-' = true)
    (hdigit : ∀ n < 10, p (Char.ofNat ('0'.toNat + n)) = true) : ∀ c ∈ ofInt n, p c = true := by
  have hdigits : ∀ c ∈ ofNat n.natAbs, p c = true :=
    fun c hc => of_isDigit hdigit (isDigit_of_mem_ofNat hc)
  rw [ofInt_eq]
  split
  · exact List.forall_mem_cons.mpr ⟨hminus, hdigits⟩
  · exact hdigits

private theorem ofInt_ne_nil (n : Int) : ofInt n ≠ [] := by
  rw [ofInt_eq]
  split
  · exact List.cons_ne_nil _ _
  · exact ofNat_ne_nil _

end Text

namespace Decimal

open Text

/-- Digits have no sign. -/
theorem sign_of_isDigits {t : Text} (ht : t.IsDigits) : sign t = (false, t) := by
  have hdigit : ∀ c ∈ t, (c != '+' && c != '-') = true := ht.forall_mem (by decide)
  rw [sign]
  · exact fun rest heq => absurd (hdigit '+' (heq ▸ List.mem_cons_self)) (by decide)
  · exact fun rest heq => absurd (hdigit '-' (heq ▸ List.mem_cons_self)) (by decide)

private theorem sign_ofInt (n : Int) : sign (ofInt n) = (decide (n < 0), ofNat n.natAbs) := by
  rw [ofInt_eq]
  split
  · next h => rw [sign, decide_eq_true h]
  · next h => rw [decide_eq_false h, sign_of_isDigits (isDigits_ofNat _)]

/-- Digits are read as the number that they stand for. -/
theorem unsignedPart_of_isDigits {t : Text} (ht : t.IsDigits) :
    unsignedPart t = some (⟨readDigits t, 0⟩, []) := by
  have hdecimal : ∀ c ∈ t, isDecimal c = true := ht.forall_mem (by decide)
  have hempty : t.isEmpty = false := by simpa using ht.nonempty
  have hmantissa : mantissaPart t = some (t, [], []) := by
    rw [mantissaPart, List.takeWhile_eq_self_iff.mpr hdecimal,
      List.dropWhile_eq_nil_iff.mpr hdecimal, hempty]
    rfl
  rw [unsignedPart, hmantissa]
  simp [exponentPart]

private theorem unsignedPart_ofNat (m : Nat) : unsignedPart (ofNat m) = some (⟨m, 0⟩, []) := by
  rw [unsignedPart_of_isDigits (isDigits_ofNat m), readDigits_ofNat]

end Decimal

private theorem Numeral.signed?_ofInt (n : Int) : Numeral.signed? (Text.ofInt n) =
    some (Decimal.toReal (decide (n < 0)) n.natAbs 0, []) := by
  rw [Numeral.signed?, Decimal.sign_ofInt]
  simp only [Decimal.unsignedPart_ofNat]

namespace Text

private theorem forall_mem_join {p : Char → Bool} {separator : Text}
    (hs : ∀ c ∈ separator, p c = true) {ts : List Text} (hts : ∀ t ∈ ts, ∀ c ∈ t, p c = true) :
    ∀ c ∈ join separator ts, p c = true := by
  induction ts with
  | nil => exact List.forall_mem_nil _
  | cons t ts ih =>
    obtain ⟨ht, hts⟩ := List.forall_mem_cons.mp hts
    cases ts with
    | nil => exact ht
    | cons u ts =>
      rw [join_cons_cons]
      exact List.forall_mem_append.mpr ⟨List.forall_mem_append.mpr ⟨ht, hs⟩, ih hts⟩

private theorem head?_join {t : Text} (h : t ≠ []) (separator : Text) (ts : List Text) :
    (join separator (t :: ts)).head? = t.head? := by
  obtain ⟨c, t, rfl⟩ := List.exists_cons_of_ne_nil h
  cases ts with
  | nil => rfl
  | cons u ts => rfl

end Text

/-- A keyword does not stand at the start of a text that starts with another letter. -/
private theorem Pattern.fits_keyword_eq_false {α : Type} {word : String} {k : Char}
    {letters t : Text} (hword : word.toList = k :: letters) (q : Unit → Pattern α)
    (h : ∀ c ∈ t.head?, Text.foldKeyword c ≠ k) : (keyword word >>= q).fits t = false := by
  refine (Bool.not_eq_true _).mp fun hfits => ?_
  obtain ⟨x, hx⟩ := fits_iff.mp hfits
  obtain ⟨y, hy, -⟩ := mem_bind.mp hx
  obtain ⟨a, b, hab, ha, -⟩ := mem_keyword.mp hy
  rw [hword] at ha
  obtain ⟨c, a, rfl, hc, -⟩ := List.map_eq_cons_iff.mp ha
  refine h c ?_ hc
  rw [show t = c :: a ++ b from hab]
  rfl

namespace Cases

open Text Pattern

/-! ### A single value -/

/-- A value that can be written in a case label: an integer, or a text of characters that may stand
in a label. -/
inductive LabelItem where
  | integer (n : Int)
  | text (t : Text) (h : t.all isLabelChar = true)

namespace LabelItem

/-- The value itself. -/
def value : LabelItem → Value
  | integer n => .number (.int n)
  | text t _ => .text t

/-- The value as it stands in a label. -/
def written : LabelItem → Text
  | integer n => ofInt n
  | text t _ => doubleQuote :: (t ++ [doubleQuote])

/-- Whether the value is found again: an integer that is a double, or a text without a comma. -/
def IsKept : LabelItem → Prop
  | integer n => Number.IsDouble n
  | text t _ => ',' ∉ t

variable {item : LabelItem}

private theorem written_ne_nil (item : LabelItem) : item.written ≠ [] := by
  cases item with
  | integer n => exact ofInt_ne_nil n
  | text t h => exact List.cons_ne_nil _ _

private theorem trimmed_written (item : LabelItem) : Trimmed item.written := by
  cases item with
  | integer n =>
    refine trimmed_of_forall fun c hc => ?_
    have hp := forall_mem_ofInt (p := fun c => !isBlank c) (by decide) (by decide) c hc
    exact (Bool.not_eq_true' _).mp hp
  | text t h =>
    have hquote : isBlank doubleQuote = false := by decide
    refine ⟨fun c hc => ?_, fun c hc => ?_⟩
    · rw [← Option.some.inj hc]
      exact hquote
    · rw [written, ← List.cons_append, List.getLast?_concat] at hc
      rw [← Option.some.inj hc]
      exact hquote

private theorem isLabelChar_of_mem_written {c : Char} (h : c ∈ item.written) :
    isLabelChar c = true := by
  cases item with
  | integer n => exact forall_mem_ofInt (by decide) (by decide) c h
  | text t ht =>
    have hquote : isLabelChar doubleQuote = true := by decide
    rcases List.mem_cons.mp h with rfl | h
    · exact hquote
    rcases List.mem_append.mp h with h | h
    · exact List.all_eq_true.mp ht c h
    · rw [List.mem_singleton.mp h]
      exact hquote

/-- No keyword that matters in a choice starts like a value. -/
private theorem foldKeyword_of_mem_head? {c : Char} (h : c ∈ item.written.head?) :
    foldKeyword c ∉ ['s', 'f', 'd'] := by
  cases item with
  | integer n =>
    have hp := forall_mem_ofInt (p := fun c => decide (foldKeyword c ∉ ['s', 'f', 'd']))
      (by decide) (by decide) c (List.mem_of_mem_head? h)
    exact of_decide_eq_true hp
  | text t ht =>
    rw [← Option.some.inj h]
    decide

/-- A kept value has no comma in its written form. -/
private theorem comma_not_mem_written (h : item.IsKept) : ',' ∉ item.written := by
  cases item with
  | integer n =>
    intro hmem
    have hp := forall_mem_ofInt (p := fun c => c != ',') (by decide) (by decide) _ hmem
    exact absurd hp (by decide)
  | text t ht =>
    rw [written, List.mem_cons, List.mem_append, List.mem_singleton]
    rintro (hquote | hmem | hquote)
    · exact absurd hquote (by decide)
    · exact h hmem
    · exact absurd hquote (by decide)

end LabelItem

private theorem labelValue_blank (t : Text) : labelValue (' ' :: t) = labelValue t := by
  have htrim : Text.trim (' ' :: t) = t.trim := by
    rw [Text.trim, trimStart, List.dropWhile_cons_of_pos (by decide)]
    rfl
  rw [labelValue, htrim]
  rfl

/-- A label that a numeral starts is the number, whatever is behind the numeral. -/
theorem labelValue_of_signed? {t rest : Text} {x : Float} (htrimmed : t.Trimmed)
    (hplain : ∀ c ∈ t, (!isQuote c) = true) (h : Numeral.signed? t = some (x, rest)) :
    labelValue t = .number (.ofReal x) := by
  have hquote : t.head?.any isQuote = false := by
    cases hhead : t.head? with
    | none => rfl
    | some c => exact (Bool.not_eq_true' _).mp (hplain c (List.mem_of_mem_head? hhead))
  rw [labelValue, htrimmed.trim_eq, hquote, Bool.and_false, if_neg Bool.false_ne_true, h]

private theorem labelValue_integer (n : Int) : labelValue (ofInt n) =
    .number (.ofReal (Decimal.toReal (decide (n < 0)) n.natAbs 0)) :=
  labelValue_of_signed? (LabelItem.trimmed_written (.integer n))
    (forall_mem_ofInt (by decide) (by decide)) (Numeral.signed?_ofInt n)

private theorem labelValue_text {t : Text} (h : t.all isLabelChar = true) :
    labelValue (doubleQuote :: (t ++ [doubleQuote])) = .text t := by
  have htrim := (LabelItem.trimmed_written (.text t h)).trim_eq
  rw [LabelItem.written] at htrim
  have hlast : (doubleQuote :: (t ++ [doubleQuote])).getLast? = some doubleQuote := by
    rw [← List.cons_append, List.getLast?_concat]
  rw [labelValue, htrim, hlast, if_pos]
  · rw [List.drop_one, List.tail_cons, List.dropLast_concat]
  · simp [isQuote]

/-- Without commas, a value is found again exactly if it is one of those that are kept. -/
private theorem labelValue_written_iff {item : LabelItem} (h : ',' ∉ item.written) :
    labelValue item.written = item.value ↔ item.IsKept := by
  cases item with
  | integer n =>
    rw [LabelItem.written, labelValue_integer, LabelItem.value, Value.number.injEq]
    exact Number.ofReal_toReal_eq_int_iff
  | text t ht =>
    rw [LabelItem.written, labelValue_text ht]
    refine iff_of_true rfl fun hmem => h ?_
    exact List.mem_cons_of_mem _ (List.mem_append_left _ hmem)

/-! ### The values of a label -/

/-- What stands before the colon of a label. -/
def writtenValues (items : List LabelItem) : Text :=
  join [',', ' '] (items.map LabelItem.written)

/-- The case label of the given values. -/
def writtenLabel (items : List LabelItem) : Text := writtenValues items ++ [':']

variable {items : List LabelItem}

private theorem labelValues_of_forall (hne : items ≠ []) (h : ∀ item ∈ items, ',' ∉ item.written) :
    labelValues (writtenValues items) = items.map fun item => labelValue item.written := by
  obtain ⟨item, items, rfl⟩ := List.exists_cons_of_ne_nil hne
  obtain ⟨hitem, hitems⟩ := List.forall_mem_cons.mp h
  rw [labelValues, writtenValues, List.map_cons, splitAt_join (by decide) hitem, List.map_cons,
    List.map_cons, List.map_map, List.map_map]
  · exact congrArg (labelValue item.written :: ·)
      (List.map_congr_left fun item _ => labelValue_blank item.written)
  · rintro t ht
    obtain ⟨item, hmem, rfl⟩ := List.mem_map.mp ht
    exact hitems item hmem

/-- A label with as many values as were written has no comma inside a value. -/
private theorem comma_not_mem_of_length (hne : items ≠ [])
    (h : (labelValues (writtenValues items)).length = items.length) :
    ∀ item ∈ items, ',' ∉ item.written := by
  obtain ⟨item, items, rfl⟩ := List.exists_cons_of_ne_nil hne
  rw [labelValues, List.length_map, length_splitAt, writtenValues, List.map_cons,
    count_join _ (by decide), List.length_map, List.length_cons] at h
  -- the commas between the values are as many as the length allows: none is left for the values
  have hsum : (((item :: items).map LabelItem.written).map (·.count ',')).sum = 0 := by
    rw [List.map_cons, List.map_cons, List.sum_cons]
    omega
  intro i hi hmem
  have hcount : i.written.count ',' ∈ ((item :: items).map LabelItem.written).map (·.count ',') :=
    List.mem_map_of_mem (List.mem_map_of_mem hi)
  have hzero : i.written.count ',' = 0 := List.sum_eq_zero_iff.mp hsum _ hcount
  exact List.count_eq_zero.mp hzero hmem

/-- **The values of a label are those that were written exactly if all of them are kept.** -/
theorem labelValues_written_iff (hne : items ≠ []) :
    labelValues (writtenValues items) = items.map LabelItem.value ↔
      ∀ item ∈ items, item.IsKept := by
  constructor
  · intro h
    have hfree := comma_not_mem_of_length hne (by rw [h, List.length_map])
    rw [labelValues_of_forall hne hfree, List.map_inj_left] at h
    exact fun item hitem => (labelValue_written_iff (hfree item hitem)).mp (h item hitem)
  · intro h
    have hfree : ∀ item ∈ items, ',' ∉ item.written :=
      fun item hitem => LabelItem.comma_not_mem_written (h item hitem)
    rw [labelValues_of_forall hne hfree]
    exact List.map_congr_left fun item hitem =>
      (labelValue_written_iff (hfree item hitem)).mpr (h item hitem)

/-! ### The line of a label -/

private theorem find?_labelLine {t : Text} (hne : t ≠ []) (h : ∀ c ∈ t, isLabelChar c = true) :
    labelLine.find? (t ++ [':']) = some t := by
  refine Finds.find? (d := ⟨some ':', []⟩) ?_
  refine (finds_run (b := [':']) rfl hne h ?_).bind ?_
  · rintro c ⟨⟩
    decide
  refine (finds_signs ":" _ []).bind ?_
  exact Finds.bind (p := finish) (a := ()) rfl (finds_pure List.take_left _)

private theorem trimmed_writtenValues (items : List LabelItem) :
    Trimmed (writtenValues items) ∧ (items ≠ [] → writtenValues items ≠ []) := by
  have hparts : ∀ t ∈ items.map LabelItem.written, t ≠ [] ∧ Trimmed t := by
    intro t ht
    obtain ⟨item, -, rfl⟩ := List.mem_map.mp ht
    exact ⟨item.written_ne_nil, item.trimmed_written⟩
  obtain ⟨htrimmed, hjoin⟩ := trimmed_join [',', ' '] hparts
  exact ⟨htrimmed, fun hne => hjoin (List.map_eq_nil_iff.not.mpr hne)⟩

/-- **A line of characters of labels and a colon, at the level of a choice, is a mark of it**, if it
does not start like a keyword that matters there. -/
theorem markAt_labelLine {t : Text} (hne : t ≠ []) (htrimmed : t.Trimmed)
    (hchars : ∀ c ∈ t, isLabelChar c = true)
    (hstart : ∀ c ∈ t.head?, foldKeyword c ∉ ['s', 'f', 'd']) {lines : List Line} {start j : Nat}
    {l : Line} (hlevel : Family.segun.AtLevel lines start j) (hl : lines[j]? = some l)
    (htext : l.text = t ++ [':']) : MarkAt lines start j (.values (labelValues t)) := by
  have hhead {k : Char} (hk : k ∈ ['s', 'f', 'd']) :
      ∀ c ∈ (t ++ [':']).head?, foldKeyword c ≠ k := by
    obtain ⟨b, t, rfl⟩ := List.exists_cons_of_ne_nil hne
    rintro c hc rfl
    exact hstart c hc hk
  have hopens : Family.segun.opens l = false := by
    rw [Family.opens, htext]
    exact fits_keyword_eq_false (k := 's') rfl _ (hhead (by simp))
  have hcloses : Family.segun.closes l = false := by
    rw [Family.closes, htext]
    exact fits_keyword_eq_false (k := 'f') rfl _ (hhead (by simp))
  have hotherwise : otherwiseLine.fits l.text = false := by
    rw [htext]
    exact fits_keyword_eq_false (k := 'd') rfl _ (hhead (by simp))
  refine ⟨l, ⟨hlevel, hl, hopens, hcloses⟩, ?_⟩
  rw [markOf?, hotherwise, if_neg Bool.false_ne_true, htext, find?_labelLine hne hchars,
    Option.map_some, htrimmed.trim_eq]

/-- No keyword that matters in a choice stands at the start of a label. -/
private theorem foldKeyword_of_mem_head?_writtenValues (hne : items ≠ []) {c : Char}
    (h : c ∈ (writtenValues items).head?) : foldKeyword c ∉ ['s', 'f', 'd'] := by
  obtain ⟨item, items, rfl⟩ := List.exists_cons_of_ne_nil hne
  rw [writtenValues, List.map_cons, head?_join item.written_ne_nil] at h
  exact LabelItem.foldKeyword_of_mem_head? h

private theorem markAt_writtenLabel (hne : items ≠ []) {lines : List Line} {start j : Nat}
    {l : Line} (hlevel : Family.segun.AtLevel lines start j) (hl : lines[j]? = some l)
    (htext : l.text = writtenLabel items) :
    MarkAt lines start j (.values (labelValues (writtenValues items))) := by
  have hchars : ∀ c ∈ writtenValues items, isLabelChar c = true := by
    have hgap : ([',', ' '] : Text).all isLabelChar = true := by decide
    refine forall_mem_join (List.all_eq_true.mp hgap) fun t ht => ?_
    obtain ⟨item, -, rfl⟩ := List.mem_map.mp ht
    exact fun c hc => LabelItem.isLabelChar_of_mem_written hc
  obtain ⟨htrimmed, hvalues⟩ := trimmed_writtenValues items
  exact markAt_labelLine (hvalues hne) htrimmed hchars
    (fun c hc => foldKeyword_of_mem_head?_writtenValues hne hc) hlevel hl htext

/-- **Which case labels are read as they were written.** The label of some values at the level of a
choice is one case of it, and its values are the same exactly if all of them are kept. -/
theorem ofLines_writtenLabel (items : List LabelItem) (hne : items ≠ []) {lines : List Line}
    {start j : Nat} {l : Line} (hlevel : Family.segun.AtLevel lines start j)
    (hl : lines[j]? = some l) (htext : l.text = writtenLabel items) :
    ∃ k ∈ (ofLines lines start).cases, k.body.start = j + 1 ∧
      (∀ k' ∈ (ofLines lines start).cases, k'.body.start = j + 1 → k' = k) ∧
      (k.values = items.map LabelItem.value ↔ ∀ item ∈ items, item.IsKept) := by
  obtain ⟨k, hk, hvalues, hstart⟩ := markAt_values_iff.mp (markAt_writtenLabel hne hlevel hl htext)
  refine ⟨k, hk, hstart, fun k' hk' hstart' => ?_, ?_⟩
  · exact case_eq_of_start_eq hk' hk (hstart'.trans hstart.symm)
  · rw [hvalues]
    exact labelValues_written_iff hne

/-- A choice with another one inside it, and a line behind that. -/
def choiceWith (line : Text) : List Line :=
  ["Segun x Hacer".toList, "Segun y Hacer".toList, "1:".toList, "FinSegun".toList, line,
    "FinSegun".toList].mapIdx fun i t => ⟨i + 1, t⟩

/-- Values that are kept: integers of either sign, and a text that looks like some. -/
def plainItems : List LabelItem :=
  [.integer (-12), .text "1. +a".toList (by decide), .integer 9007199254740994]

/-- A label with a negative number, a string with a sign and an integer of 54 bits. -/
theorem ofLines_writtenLabel_plainItems :
    writtenLabel plainItems = "-12, \"1. +a\", 9007199254740994:".toList ∧
      ∃ k ∈ (ofLines (choiceWith (writtenLabel plainItems)) 1).cases, k.body.start = 5 ∧
        k.values = plainItems.map LabelItem.value := by
  have hlevel : Family.segun.AtLevel (choiceWith (writtenLabel plainItems)) 1 4 := by
    decide
  have hline : (choiceWith (writtenLabel plainItems))[4]? = some ⟨5, writtenLabel plainItems⟩ := rfl
  obtain ⟨k, hk, hstart, -, hvalues⟩ :=
    ofLines_writtenLabel plainItems (List.cons_ne_nil _ _) hlevel hline rfl
  refine ⟨by decide, k, hk, hstart, hvalues.mpr ?_⟩
  have hlow : Number.IsDouble (-12) := Number.ofReal_toReal_eq_int_iff.mp (by decide)
  have hhigh : Number.IsDouble 9007199254740994 :=
    Number.ofReal_toReal_eq_int_iff.mp (by decide)
  simp [plainItems, LabelItem.IsKept, hlow, hhigh]

/-- Values that are not: an integer between two doubles, and a text with a comma. -/
def changedItems : List LabelItem := [.integer 9007199254740993, .text "a, b".toList (by decide)]

/-- **A label whose values are not those that were written.** -/
theorem values_writtenLabel_changedItems :
    writtenLabel changedItems = "9007199254740993, \"a, b\":".toList ∧
      (ofLines (choiceWith (writtenLabel changedItems)) 1).cases.map (·.values) =
        [[.number (.int 9007199254740992), .text "\"a".toList, .text "b\"".toList]] := by
  refine ⟨by decide, ?_⟩
  rfl

end Cases

end Pseudocode
