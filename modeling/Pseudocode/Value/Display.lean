import Pseudocode.Value.Basic

/-!
# Values as text

A value has three written forms. `display` is what the program's author sees in its output.
`plain` is what text operations work on. `literal` is the form inside messages, where text is
quoted.
-/

namespace Pseudocode.Value

/-- A value as the program's output shows it. -/
def display : Value → Except Fault Text
  | null => .ok "null".toList
  | bool b => .ok (if b then "VERDADERO" else "FALSO").toList
  | number n => n.display
  | text t => .ok t
  | array xs => .ok (Text.join [','] (xs.toList.map Number.displayReal))

/-- Of a long array, this many elements are listed at either end. -/
def listedAtEnds : Nat := 10

/-- An array up to this many elements is listed in full: leaving out a single element would save
no line. -/
def listedInFull : Nat := 2 * listedAtEnds + 1

/-- The elements of an array, one a line, with commas between them. -/
def listElements (elements : List Float) : Text :=
  Text.join ",\n".toList
    (elements.map fun x => ' ' :: ' ' :: Number.listLayout.render x)

/-- The listing of an array. -/
def listArray (elements : List Float) : Text :=
  if elements.isEmpty then "[]".toList
  else if elements.length ≤ listedInFull then
    "[\n".toList ++ listElements elements ++ "\n]".toList
  else
    "[\n".toList ++ listElements (elements.take listedAtEnds) ++ ",\n  ...\n".toList
      ++ listElements (elements.drop (elements.length - listedAtEnds)) ++ "\n]".toList

/-- A value as text operations see it. -/
def plain : Value → Except Fault Text
  | null => .ok "None".toList
  | bool b => .ok (if b then "True" else "False").toList
  | number n => n.text
  | text t => .ok t
  | array xs => .ok (listArray xs.toList)

/-- A value as numbers are shown: anything but a real number as text operations see it. -/
def displayAsNumber : Value → Except Fault Text
  | number (.real x) => .ok (Number.displayReal x)
  | v => v.plain

/-- A value as messages show it. An array is shown by the list of its elements alone: there is no
line in front of it that says what is listed and where in memory it lies. -/
def literal : Value → Except Fault Text
  | text t => .ok t.quoted
  | v => v.plain

end Pseudocode.Value
