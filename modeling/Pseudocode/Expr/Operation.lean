import Pseudocode.Arithmetic
import Pseudocode.Expr.Basic
import Pseudocode.Value.Display

/-!
# Operations on values

What the operators of expressions do with the values of their operands.
-/

namespace Pseudocode

namespace Value

/-- The number that an operand of the given operation stands for. -/
def requireNumber (operation : Text) (v : Value) : Except Fault Number :=
  match v.toNumber? with
  | some n => .ok n
  | none => do
    let shown ← v.display
    throw (.ofProblem (.needsNumbers operation shown))

/-- The order of two values, if they can be ordered: texts by their code points, numbers and truth
values by size. Not-a-number has no order, but it can be compared. -/
def compare? : Value → Value → Option (Option Ordering)
  | text s, text t => some (some (compare s t))
  | a, b => match a.toNumber?, b.toNumber? with
    | some m, some n => some (m.compare? n)
    | _, _ => none

/-- The order of two values; there is a fault if they cannot be ordered. -/
def order (a b : Value) : Except Fault (Option Ordering) :=
  match a.compare? b with
  | some o => .ok o
  | none => do
    let left ← a.display
    let right ← b.display
    throw (.ofProblem (.incomparable left right))

/-- Two values one behind the other, as they are shown. -/
def concatenate (a b : Value) : Except Fault Value := do
  let left ← a.display
  let right ← b.display
  return .text (left ++ right)

/-- Whether a value is text. -/
def isText : Value → Bool
  | text _ => true
  | _ => false

end Value

namespace BinaryOp

/-- An operation on numbers, by the name of its operator in messages. -/
def onNumbers (operation : Text) (f : Number → Number → Except Fault Number) (a b : Value) :
    Except Fault Value := do
  let m ← a.requireNumber operation
  let n ← b.requireNumber operation
  return .number (← f m n)

/-- What an operator does. -/
def apply (op : BinaryOp) (a b : Value) : Except Fault Value :=
  match op with
  | add =>
    if a.isText || b.isText then a.concatenate b
    else onNumbers op.name Number.add a b
  | subtract => onNumbers op.name Number.subtract a b
  | multiply => onNumbers op.name Number.multiply a b
  | divide => onNumbers op.name Number.divide a b
  | modulo => onNumbers op.name Number.modulo a b
  | power => onNumbers op.name (fun m n => .ok (m.power n)) a b
  | equal => .ok (.bool (a.equals b))
  | unequal => .ok (.bool (!a.equals b))
  | less => do return .bool ((← a.order b) == some .lt)
  | lessEqual => do
    let o ← a.order b
    return .bool (o == some .lt || o == some .eq)
  | greater => do return .bool ((← a.order b) == some .gt)
  | greaterEqual => do
    let o ← a.order b
    return .bool (o == some .gt || o == some .eq)

/-- What the operator of a name does. A name that is no operator's is taken for one that works on
numbers until both operands are seen to be some. -/
def applyNamed (name : Text) (a b : Value) : Except Fault Value :=
  match ofName? name with
  | some op => op.apply a b
  | none => onNumbers name (fun _ _ => .error (.ofProblem (.unknownOperator name))) a b

end BinaryOp

namespace UnaryOp

/-- What an operator does. -/
def apply (op : UnaryOp) (v : Value) : Except Fault Value :=
  match op with
  | not => .ok (.bool (!v.isTrue))
  | negate => do return .number (← v.requireNumber op.name).negate
  | keep => do return .number (← v.requireNumber op.name)

end UnaryOp

end Pseudocode
