import Pseudocode.Expr.Operation
import Pseudocode.Numeral
import Pseudocode.Text.Case

/-!
# Built-in functions

The functions that expressions can call, by the words that name them.
-/

namespace Pseudocode

/-- The functions of one number whose value rests on it alone. -/
inductive NumberFunction where
  | squareRoot | absolute | sine | cosine | tangent | logarithm | exponential | cut | round
deriving Repr, DecidableEq

/-- The functions of one value that is taken as text. -/
inductive TextFunction where
  | length | upper | lower | toNumber
deriving Repr, DecidableEq

/-- The functions that can be called. -/
inductive Builtin where
  | ofNumber (f : NumberFunction)
  | random
  | ofText (f : TextFunction)
  | substring
  | concatenate
  | toText
deriving Repr, DecidableEq

namespace NumberFunction

/-- The value of a function. -/
def apply (f : NumberFunction) (n : Number) : Except Fault Number :=
  match f with
  | squareRoot => n.squareRoot
  | absolute => .ok n.absolute
  | sine => n.periodic Float.sin
  | cosine => n.periodic Float.cos
  | tangent => n.periodic Float.tan
  | logarithm => .ok n.logarithm
  | exponential => .ok n.exponential
  | cut => n.cut
  | round => n.round

end NumberFunction

namespace TextFunction

/-- The number at the start of a text; not-a-number if there is none. -/
def readNumber (t : Text) : Except Fault Value := do
  match ← Numeral.leading t with
  | some x => return .number (.ofReal x)
  | none => return .real Binary64.nan

/-- The value of a function. -/
def apply (f : TextFunction) (v : Value) : Except Fault Value := do
  let t ← v.plain
  match f with
  | length => return .int t.length
  | upper => return .text t.upper
  | lower => return .text t.lower
  | toNumber => readNumber t

end TextFunction

namespace Builtin

/-- The functions by their names. -/
def names : List (String × Builtin) :=
  [("raiz", ofNumber .squareRoot), ("rc", ofNumber .squareRoot), ("abs", ofNumber .absolute),
   ("sen", ofNumber .sine), ("cos", ofNumber .cosine), ("tan", ofNumber .tangent),
   ("ln", ofNumber .logarithm), ("exp", ofNumber .exponential), ("trunc", ofNumber .cut),
   ("redon", ofNumber .round), ("azar", random),
   ("longitud", ofText .length), ("mayusculas", ofText .upper), ("minusculas", ofText .lower),
   ("subcadena", substring), ("concatenar", concatenate),
   ("convertiranumero", ofText .toNumber), ("convertiratexto", toText)]

/-- The function of a name. -/
def ofName? (name : Text) : Option Builtin :=
  (names.find? (·.1.toList == name)).map (·.2)

/-- How many arguments a function takes. -/
def arity : Builtin → Nat
  | substring => 3
  | concatenate => 2
  | _ => 1

/-- The integer that a position in a text stands for. -/
def toPosition : Value → Except Fault Int
  | .null => .error .nullInteger
  | .bool b => .ok (if b then 1 else 0)
  | .number n => n.truncate
  | .text t => Numeral.integer t
  | .array _ => .error .arrayInteger

/-- A position that may count from the end, brought into a text of the given length. -/
def clampPosition (length : Nat) (i : Int) : Nat :=
  if i < 0 then (i + length).toNat else min i.toNat length

/-- The characters of a text from one position up to and with another. Negative positions count
from the end. -/
def slice (t : Text) (first last : Int) : Text :=
  let start := clampPosition t.length first
  let stop := clampPosition t.length (last + 1)
  (t.take stop).drop start

/-- The part of a value's text between two positions. -/
def substringOf (v first last : Value) : Except Fault Value := do
  let t ← v.plain
  let i ← toPosition first
  let j ← toPosition last
  return .text (slice t i j)

end Builtin

end Pseudocode
