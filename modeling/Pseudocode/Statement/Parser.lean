import Pseudocode.Statement.Basic
import Pseudocode.Statement.Shape

/-!
# Reading statements

`Action.read` tells what the line at a position of a program does: the first shape in a fixed order
that the line has decides. The blocks that it opens lie behind it and within the program
(`Action.read_fits`).
-/

namespace Pseudocode

namespace Action

/-- The names in a list, between its commas. -/
def namesOf (list : Text) : List Text := (list.splitAt ',').map Text.trim

/-- A definition of variables, if all their names are names. -/
def readDeclare (names type : Text) : Action :=
  if (namesOf names).all Text.isName then .declare (namesOf names) type else .skip

/-- A definition of the arrays in a list, if there are any. -/
def readDimension (list : Text) : Action :=
  match Shape.arrayItem.findAll list with
  | [] => .skip
  | arrays => .dimension (arrays.map fun (name, size) => (name, size.trim)) list

/-- A loop with a condition whose body starts at `start`. -/
def readWhile (lines : List Line) (start : Nat) (condition : Text) : Action :=
  .whileLoop condition.trim ⟨start, Family.mientras.blockEnd lines start⟩

/-- A counting loop whose body starts at `start`. -/
def readFor (lines : List Line) (start : Nat) (c : Shape.Counting) : Action :=
  .forLoop c.counter c.first.trim c.last.trim (c.step.map Text.trim)
    ⟨start, Family.para.blockEnd lines start⟩

/-- An assignment. -/
def readAssign (a : Shape.Assignment) : Action :=
  match a.index.map Text.trim with
  | none => .assign a.name a.name none a.value.trim
  | some index => .assign (a.name ++ '[' :: index ++ [']']) a.name (some index) a.value.trim

/-- What the line with the given text at position `i` of a program does. -/
def read (lines : List Line) (i : Nat) (text : Text) : Action :=
  if Shape.marker.fits text then .marker
  else if let some (names, type) := Shape.declare.find? text then readDeclare names type
  else if let some list := Shape.dimension.find? text then readDimension list
  else if let some list := Shape.input.find? text then
    .input ((namesOf list).filter (!·.isEmpty)) list
  else if let some list := Shape.output.find? text then .output list
  else if let some condition := Shape.whileLoop.find? text then readWhile lines (i + 1) condition
  else if let some counting := Shape.forLoop.find? text then readFor lines (i + 1) counting
  else if let some subject := Shape.choice.find? text then
    .choice subject.trim (.ofLines lines (i + 1))
  else if let some condition := Shape.conditional.find? text then
    .conditional condition.trim (.ofLines lines (i + 1)) false
  else if let some condition := Shape.chained.find? text then
    .conditional condition.trim (.ofLines lines (i + 1)) true
  else if let some a := Shape.assign.find? text then readAssign a
  else .skip

/-- The body of a block lies between its header and the end of the lines. -/
theorem fits_span {f : Family} {lines : List Line} {start : Nat} (h : start ≤ lines.length) :
    Cases.Inside start lines.length ⟨start, f.blockEnd lines start⟩ :=
  ⟨Nat.le_refl _, f.blockEnd_bounds h⟩

/-- The blocks that a line opens lie behind it and within the program. -/
theorem read_fits {lines : List Line} {i : Nat} (h : i < lines.length) (text : Text) :
    (read lines i text).Fits i lines.length := by
  unfold read
  split
  · trivial
  split
  · unfold readDeclare
    split <;> trivial
  split
  · unfold readDimension
    split <;> trivial
  split
  · trivial
  split
  · trivial
  split
  · exact fits_span h
  split
  · exact fits_span h
  split
  · exact Cases.ofLines_within h
  split
  · exact Branches.ofLines_within h
  split
  · exact Branches.ofLines_within h
  split
  · unfold readAssign
    split <;> trivial
  · trivial

end Action

end Pseudocode
