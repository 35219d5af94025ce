import Pseudocode.Text.CaseTable

/-!
# Small and capital letters

`lower` and `upper` are the full case mappings of Unicode: one character may become several, and a
capital sigma becomes a final sigma at the end of a word. `foldKeyword` is the coarser comparison
under which keywords are recognised, one character at a time.
-/

namespace Pseudocode.Text

/-- The small form of a letter, where it is one character. -/
def lowerChar (c : Char) : Char :=
  if c.toNat < 0x80 then c.toLower
  else match lowerRuns.findSome? (·.image? c.toNat) with
    | some n => Char.ofNat n
    | none => c

/-- Whether a character has case. -/
def isCased (c : Char) : Bool := casedRanges.has c

/-- Whether a character is passed over in the search for a cased neighbour. -/
def isCaseIgnorable (c : Char) : Bool := caseIgnorableRanges.has c

/-- Whether the first character that counts in a text has case. -/
def startsCased (t : Text) : Bool :=
  match t.dropWhile isCaseIgnorable with
  | [] => false
  | c :: _ => isCased c

/-- The small form of a text that follows other text; `afterCased` tells whether the last
character that counts before it has case. -/
def lowerAfter (afterCased : Bool) : Text → Text
  | [] => []
  | c :: rest =>
    let next := if isCaseIgnorable c then afterCased else isCased c
    if c.toNat = 0x3A3 then
      Char.ofNat (if afterCased && !startsCased rest then 0x3C2 else 0x3C3) :: lowerAfter next rest
    else if c.toNat = 0x130 then
      'i' :: Char.ofNat 0x307 :: lowerAfter next rest
    else
      lowerChar c :: lowerAfter next rest

/-- A text in small letters. -/
def lower (t : Text) : Text := lowerAfter false t

/-- The capital form of a character. -/
def upperChar (c : Char) : Text :=
  if c.toNat < 0x80 then [c.toUpper]
  else match longUppers.find? (·.1 = c.toNat) with
    | some (_, letters) => letters.map Char.ofNat
    | none =>
      match upperRuns.findSome? (·.image? c.toNat) with
      | some n => [Char.ofNat n]
      | none => [c]

/-- A text in capital letters. -/
def upper (t : Text) : Text := t.flatMap upperChar

/-- The letter that a character stands for in a keyword: its small form, where the dotted capital
and the dotless small `i` count as `i`, and the long `s` counts as `s`. -/
def foldKeyword (c : Char) : Char :=
  if c.toNat = 0x130 ∨ c.toNat = 0x131 then 'i'
  else if c.toNat = 0x17F then 's'
  else lowerChar c

end Pseudocode.Text
