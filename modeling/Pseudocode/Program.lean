import Pseudocode.Statement.Parser

/-!
# Programs

A program is a flat list of statements, one a line, in which every block lies behind the statement
that opens it and within the program.
-/

namespace Pseudocode

/-- A program, whose blocks all lie within it. -/
structure Program where
  statements : Array Statement
  fits : ∀ (i : Nat) (h : i < statements.size), statements[i].action.Fits i statements.size

namespace Program

/-- The statements of the given lines. -/
def statementsOf (lines : List Line) : List Statement :=
  lines.mapIdx fun i l => ⟨l, Action.read lines i l.text⟩

/-- The program that the given lines are. -/
def ofLines (lines : List Line) : Program where
  statements := (statementsOf lines).toArray
  fits i h := by
    have hi : i < lines.length := by simpa [statementsOf] using h
    simpa [statementsOf] using Action.read_fits hi lines[i].text

/-- The program of a source text. -/
def ofSource (source : Text) : Program := ofLines (Line.ofSource source)

/-- The number of statements. -/
def size (p : Program) : Nat := p.statements.size

end Program

end Pseudocode
