import Pseudocode.Text.Blank
import Pseudocode.Text.Case
import Pseudocode.Text.Word

/-!
# Patterns

The shapes of lines. A pattern gives all the ways in which it matches the text at a cursor, the
preferred way first, each with what it found and the cursor behind it. The first way is the one
that counts, but a pattern that follows may rule it out, and then the next one counts: this is how
the shortest condition of a loop, say, can still be followed by the right closing word.

Keywords are recognised in any case, letter by letter (`Text.foldKeyword`).
-/

namespace Pseudocode

/-- A place in a text: the character before it, if any, and the text behind it. -/
structure Cursor where
  before : Option Char
  rest : Text
deriving Repr, DecidableEq

/-- The place at the start of a text. -/
def Cursor.start (t : Text) : Cursor := ⟨none, t⟩

/-- The place behind some text that was passed over. -/
def Cursor.past (passed : Text) (c : Cursor) (rest : Text) : Cursor :=
  ⟨passed.getLast?.or c.before, rest⟩

/-- A piece of a text, which starts where `source` does and has `length` characters. A run of
characters can end at many places, and its text is put together only for the one that counts. -/
structure Piece where
  source : Text
  length : Nat
deriving Repr, DecidableEq

/-- The text of a piece. -/
def Piece.text (p : Piece) : Text := p.source.take p.length

/-- A pattern: all the ways it matches at a cursor, the preferred one first. -/
def Pattern (α : Type) : Type := Cursor → List (α × Cursor)

namespace Pattern

/-- Matches nothing at all, and finds `a`. -/
def found {α : Type} (a : α) : Pattern α := fun c => [(a, c)]

/-- A pattern followed by another one, which may depend on what the first one found. -/
def next {α β : Type} (p : Pattern α) (q : α → Pattern β) : Pattern β := fun c =>
  (p c).flatMap fun (a, d) => q a d

instance : Monad Pattern where
  pure := found
  bind := next

/-- One pattern or, failing that, another one. -/
def either {α : Type} (p q : Pattern α) : Pattern α := fun c => p c ++ q c

/-- A pattern or nothing; the pattern is preferred. -/
def optional {α : Type} (p : Pattern α) : Pattern (Option α) := fun c =>
  (p c).map (fun (a, d) => (some a, d)) ++ [(none, c)]

/-- The cursors that can be reached from a cursor by passing over characters of a class, the nearest
first, each with the number of characters passed over, of which `passed` have been counted
already. -/
def reaches (inClass : Char → Bool) (passed : Nat) (before : Option Char) :
    Text → List (Nat × Cursor)
  | [] => [(passed, ⟨before, []⟩)]
  | c :: rest =>
    (passed, ⟨before, c :: rest⟩) ::
      if inClass c then reaches inClass (passed + 1) (some c) rest else []

/-- The cursors that can be reached by passing over characters of a class, the nearest first, each
with what is passed over. -/
def pieces (inClass : Char → Bool) (c : Cursor) : List (Piece × Cursor) :=
  (reaches inClass 0 c.before c.rest).map fun (n, d) => (⟨c.rest, n⟩, d)

/-- A run of characters of a class, at least one, as many as possible. -/
def run (inClass : Char → Bool) : Pattern Piece := fun c => ((pieces inClass c).drop 1).reverse

/-- A run of characters of a class, at least one, as few as possible. -/
def few (inClass : Char → Bool) : Pattern Piece := fun c => (pieces inClass c).drop 1

/-- A run of characters of a class, or none, as many as possible. -/
def runOrNone (inClass : Char → Bool) : Pattern Piece := fun c => (pieces inClass c).reverse

/-- All that is left of the text, which must not be empty. -/
def remainder : Pattern Text := fun c =>
  match c.rest with
  | [] => []
  | rest => [(rest, c.past rest [])]

/-- The text of a keyword at the start of a text, as it is written there, and the rest. -/
def keyword? : Text → Text → Option (Text × Text)
  | [], rest => some ([], rest)
  | _ :: _, [] => none
  | k :: word, c :: rest =>
    if Text.foldKeyword c = k then (keyword? word rest).map fun (a, b) => (c :: a, b) else none

/-- A keyword, given in small letters. -/
def keyword (word : String) : Pattern Unit := fun c =>
  match keyword? word.toList c.rest with
  | some (a, b) => [((), c.past a b)]
  | none => []

/-- Signs, exactly as they are given. -/
def signs (s : String) : Pattern Unit := fun c =>
  if s.toList.isPrefixOf c.rest then [((), c.past s.toList (c.rest.drop s.length))] else []

/-- At least one blank. -/
def blanks : Pattern Unit := do let _ ← run Text.isBlank

/-- Blanks, if there are any. -/
def someBlanks : Pattern Unit := do let _ ← runOrNone Text.isBlank

/-- One blank. -/
def blank : Pattern Unit := fun c =>
  match c.rest with
  | b :: rest => if Text.isBlank b then [((), ⟨some b, rest⟩)] else []
  | [] => []

/-- The edge of a word: a word starts or ends here. -/
def edge : Pattern Unit := fun c =>
  if c.before.any Text.isWordChar != c.rest.head?.any Text.isWordChar then [((), c)] else []

/-- The end of the text. -/
def finish : Pattern Unit := fun c => if c.rest.isEmpty then [((), c)] else []

/-- Any character. -/
def anything (_ : Char) : Bool := true

/-- What a pattern finds at the start of a text. -/
def find? {α : Type} (p : Pattern α) (t : Text) : Option α :=
  (p (.start t)).head?.map (·.1)

/-- Whether a pattern matches at the start of a text. -/
def fits {α : Type} (p : Pattern α) (t : Text) : Bool :=
  (p.find? t).isSome

/-- What a pattern finds in a text from the cursor on, left to right, at places that do not
overlap, in so many steps. Each step passes over a place that was found, or else over one
character. -/
def findAllFrom {α : Type} (p : Pattern α) : Nat → Cursor → List α
  | 0, _ => []
  | steps + 1, c =>
    match (p c).head?, c.rest with
    | some (a, d), _ => a :: findAllFrom p steps d
    | none, b :: rest => findAllFrom p steps ⟨some b, rest⟩
    | none, [] => []

/-- What a pattern that takes at least one character finds in a text, left to right, at places that
do not overlap. -/
def findAll {α : Type} (p : Pattern α) (t : Text) : List α := findAllFrom p t.length (.start t)

end Pattern

end Pseudocode
