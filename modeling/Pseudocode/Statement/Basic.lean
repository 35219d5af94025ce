import Pseudocode.Block.Branches
import Pseudocode.Block.Cases

/-!
# Statements

Each line of a program is one statement, at the same position. A statement that opens a block names
the lines of its bodies by their positions; the expressions in it are kept as text and read when
they are needed.
-/

namespace Pseudocode

/-- What a line does. -/
inductive Action where
  /-- Nothing: closing lines, clauses, case labels, and lines that mean nothing. -/
  | skip
  /-- The start or the end of the program or of a part of it. -/
  | marker
  /-- Defines variables of a type. -/
  | declare (names : List Text) (type : Text)
  /-- Defines arrays, each with the expression for its size; `source` is the whole list. -/
  | dimension (arrays : List (Text × Text)) (source : Text)
  /-- Reads values for variables; `source` is the whole list. -/
  | input (names : List Text) (source : Text)
  /-- Writes a line. -/
  | output (source : Text)
  /-- Repeats a body while a condition holds. -/
  | whileLoop (condition : Text) (body : Span)
  /-- Repeats a body for the values of a counter. -/
  | forLoop (counter first last : Text) (step : Option Text) (body : Span)
  /-- Runs the group that has the value of the subject. -/
  | choice (subject : Text) (cases : Cases)
  /-- Runs a body if a condition holds, else what its clauses say; `chained` if it is a clause
  itself. -/
  | conditional (condition : Text) (branches : Branches) (chained : Bool)
  /-- Gives a new value to a variable or to an array element; `target` is the left side. -/
  | assign (target name : Text) (index : Option Text) (value : Text)
deriving Repr

namespace Action

/-- The first body of a conditional at position `i`. -/
def thenBody (i : Nat) (b : Branches) : Span := ⟨i + 1, b.firstEnd⟩

/-- Where execution goes on behind a statement at position `i`: behind the block that it opens, or
at the next line. -/
def resume (i : Nat) : Action → Nat
  | whileLoop _ body => body.stop + 1
  | forLoop _ _ _ _ body => body.stop + 1
  | choice _ cases => cases.terminator + 1
  | conditional _ branches _ => branches.terminator + 1
  | _ => i + 1

/-- The name of the kind of a statement. -/
def kindName : Action → String
  | skip => "Skip"
  | marker => "ProgramMarker"
  | declare .. => "Declare"
  | dimension .. => "Dimension"
  | input .. => "Input"
  | output .. => "Output"
  | whileLoop .. => "While"
  | forLoop .. => "For"
  | choice .. => "Switch"
  | conditional .. => "If"
  | assign .. => "Assign"

/-- The blocks that a statement at position `i` opens lie behind it and within `size` lines. -/
def Fits (i size : Nat) : Action → Prop
  | whileLoop _ body => Cases.Inside (i + 1) size body
  | forLoop _ _ _ _ body => Cases.Inside (i + 1) size body
  | choice _ cases => cases.Within (i + 1) size
  | conditional _ branches _ => branches.Within (i + 1) size
  | _ => True

/-- Execution never goes back behind a statement. -/
theorem lt_resume {i size : Nat} {a : Action} (h : a.Fits i size) : i < a.resume i := by
  cases a with
  | whileLoop c body => exact Nat.lt_succ_of_le (by have := h.1; have := h.2.1; omega)
  | forLoop n f l s body => exact Nat.lt_succ_of_le (by have := h.1; have := h.2.1; omega)
  | choice s cases => exact Nat.lt_succ_of_le (Nat.le_of_succ_le h.lower)
  | conditional c b e => exact Nat.lt_succ_of_le (Nat.le_of_succ_le h.lower)
  | _ => exact Nat.lt_succ_self i

end Action

/-- A statement and the line it stands on. -/
structure Statement where
  line : Line
  action : Action
deriving Repr

end Pseudocode
