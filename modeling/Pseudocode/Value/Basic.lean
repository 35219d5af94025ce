import Pseudocode.Number

/-!
# Values

The values that variables hold and expressions yield.
-/

namespace Pseudocode

/-- A value of the language. Arrays hold doubles only. -/
inductive Value where
  | null
  | bool (b : Bool)
  | number (n : Number)
  | text (t : Text)
  | array (elements : Array Float)
deriving Repr, DecidableEq

namespace Value

/-- An integer value. -/
abbrev int (n : Int) : Value := number (.int n)

/-- A real value. -/
abbrev real (x : Float) : Value := number (.real x)

/-- Whether a value is a number; truth values are not. -/
def isNumber : Value → Bool
  | number _ => true
  | _ => false

/-- The number an operand of arithmetic stands for. A truth value counts as one or zero. -/
def toNumber? : Value → Option Number
  | number n => some n
  | bool b => some (.int (if b then 1 else 0))
  | _ => none

/-- Whether a value counts as true: everything but the empty value, `FALSO`, zero, and empty texts
and arrays. -/
def isTrue : Value → Bool
  | null => false
  | bool b => b
  | number n => n.isTrue
  | text t => !t.isEmpty
  | array xs => !xs.isEmpty

/-- Whether two values are equal. Truth values equal the numbers they count as; arrays are equal
when they have equal elements throughout. -/
def equals : Value → Value → Bool
  | null, null => true
  | text s, text t => s == t
  | array xs, array ys => xs.size == ys.size && (xs.zip ys).all fun (x, y) => x == y
  | a, b => match a.toNumber?, b.toNumber? with
    | some m, some n => m.equals n
    | _, _ => false

end Value

end Pseudocode
