import Pseudocode.Pattern

/-!
# The shapes of statements

The patterns that tell the kinds of lines apart. Each finds the texts that its statement needs.
-/

namespace Pseudocode.Shape

open Pattern

/-- The start or end of a program or of a part of it. -/
def marker : Pattern Unit := do
  let _ ← optional (do keyword "fin"; someBlanks)
  either (keyword "algoritmo") (either (keyword "proceso")
    (either (keyword "subproceso") (keyword "funcion")))
  edge

/-- `Definir` names `Como` type. -/
def declare : Pattern (Text × Text) := do
  keyword "definir"; blanks
  let names ← few anything
  blanks; keyword "como"; blanks
  let type ← run Text.isWordChar
  return (names.text, type.text)

/-- `Dimension` list. -/
def dimension : Pattern Text := do
  keyword "dimension"; blanks
  let list ← remainder
  return list

/-- An array and its size in brackets. -/
def arrayItem : Pattern (Text × Text) := do
  let name ← run Text.isWordChar
  someBlanks; signs "["
  let size ← run (· != ']')
  signs "]"
  return (name.text, size.text)

/-- `Leer` list. -/
def input : Pattern Text := do
  keyword "leer"; blanks
  let list ← remainder
  return list

/-- `Escribir` list, in any of its three words. -/
def output : Pattern Text := do
  either (keyword "escribir") (either (keyword "imprimir") (keyword "mostrar"))
  blanks
  let list ← remainder
  return list

/-- The word `Hacer` that may stand at the end of a header, and the end of the line. -/
def header : Pattern Unit := do
  let _ ← optional (do blanks; keyword "hacer")
  finish

/-- `Mientras` condition. -/
def whileLoop : Pattern Text := do
  keyword "mientras"; blanks
  let condition ← few anything
  header
  return condition.text

/-- What a counting loop says: the counter, where it starts, where it ends, and its step. -/
structure Counting where
  counter : Text
  first : Text
  last : Text
  step : Option Text

/-- `Para` counter `<-` first `Hasta` last, perhaps with `Con Paso` step. -/
def forLoop : Pattern Counting := do
  keyword "para"; blanks
  let counter ← run Text.isWordChar
  someBlanks; either (signs "<-") (signs "="); someBlanks
  let first ← few anything
  blanks; keyword "hasta"; blanks
  let last ← few anything
  let step ← optional (do
    blanks; keyword "con"; blanks; keyword "paso"; blanks
    let step ← few anything
    return step.text)
  header
  return ⟨counter.text, first.text, last.text, step⟩

/-- `Segun` subject. -/
def choice : Pattern Text := do
  keyword "segun"; blanks
  let subject ← few anything
  header
  return subject.text

/-- A condition and the word `Entonces` behind it. -/
def thenClause : Pattern Text := do
  let condition ← few anything
  blanks; keyword "entonces"; edge
  return condition.text

/-- `Si` condition `Entonces`. -/
def conditional : Pattern Text := do
  keyword "si"; blanks
  let condition ← thenClause
  return condition

/-- `SiNo Si` condition `Entonces`. -/
def chained : Pattern Text := do
  keyword "sino"; blanks; keyword "si"; blanks
  let condition ← thenClause
  return condition

/-- The two sides of an assignment. -/
structure Assignment where
  name : Text
  index : Option Text
  value : Text

/-- A variable or an array element, `<-` or `=`, and a value. -/
def assign : Pattern Assignment := do
  let name ← run Text.isWordChar
  someBlanks
  let index ← optional (do
    signs "["
    let index ← run (· != ']')
    signs "]"
    return index.text)
  someBlanks; either (signs "<-") (signs "="); someBlanks
  let value ← remainder
  return ⟨name.text, index, value⟩

end Pseudocode.Shape
