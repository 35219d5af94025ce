/-!
# Text

Text is a list of code points. Everything that counts characters in this library (columns,
lengths, slices, array-like positions in a text) counts elements of that list.

The operations here know nothing of character classes: cutting at a separator, joining, and the
decimal notation of whole numbers.
-/

namespace Pseudocode

/-- A text, as the list of its code points. -/
abbrev Text := List Char

namespace Text

/-- The pieces of a text between the occurrences of a separator; there is always at least one. -/
def splitAt (separator : Char) : Text → List Text
  | [] => [[]]
  | c :: rest =>
    if c = separator then [] :: splitAt separator rest
    else match splitAt separator rest with
      | [] => [[c]]
      | piece :: pieces => (c :: piece) :: pieces

/-- The texts one after the other, with a separator between neighbours. -/
def join (separator : Text) : List Text → Text
  | [] => []
  | [t] => t
  | t :: rest => t ++ separator ++ join separator rest

/-- A natural number in decimal notation. -/
def ofNat (n : Nat) : Text := Nat.toDigits 10 n

/-- An integer in decimal notation, with a minus sign where it is negative. -/
def ofInt : Int → Text
  | .ofNat n => ofNat n
  | .negSucc n => '-' :: ofNat (n + 1)

@[simp] theorem splitAt_nil (s : Char) : splitAt s [] = [[]] := rfl

@[simp] theorem splitAt_cons_self (s : Char) (t : Text) :
    splitAt s (s :: t) = [] :: splitAt s t := by
  simp [splitAt]

/-- A text has at least one part. -/
theorem splitAt_ne_nil (s : Char) (t : Text) : splitAt s t ≠ [] := by
  cases t with
  | nil => simp
  | cons c t =>
    rw [splitAt]
    split
    · simp
    · split <;> simp

@[simp] theorem join_nil (s : Text) : join s [] = [] := rfl

@[simp] theorem join_singleton (s t : Text) : join s [t] = t := rfl

@[simp] theorem join_cons_cons (s t u : Text) (rest : List Text) :
    join s (t :: u :: rest) = t ++ s ++ join s (u :: rest) := rfl

end Text

end Pseudocode
