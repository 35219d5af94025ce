import Pseudocode.Value.Basic

/-!
# Expressions

The trees of expressions. Operators are named by what they do, so different spellings of one
operator (`=` and `==`, `^` and `**`) give the same tree.
-/

namespace Pseudocode

/-- The operators before one operand. -/
inductive UnaryOp where
  | negate | keep | not
deriving Repr, DecidableEq

/-- The operators between two operands that are both evaluated. -/
inductive BinaryOp where
  | add | subtract | multiply | divide | modulo | power
  | equal | unequal | less | lessEqual | greater | greaterEqual
deriving Repr, DecidableEq

/-- The operators between two operands of which the second may not be needed. -/
inductive LogicOp where
  | and | or
deriving Repr, DecidableEq

/-- An expression. Names stand as they were written, except that the name of a function is in
small letters. -/
inductive Expr where
  | number (n : Number)
  | text (content : Text)
  | bool (b : Bool)
  | variable (name : Text)
  | element (array : Text) (index : Expr)
  | unary (op : UnaryOp) (operand : Expr)
  | binary (op : BinaryOp) (left right : Expr)
  | logic (op : LogicOp) (left right : Expr)
  | call (function : Text) (arguments : List Expr)
deriving Repr

namespace UnaryOp

/-- The name of an operator. -/
def name : UnaryOp → Text
  | negate => ['-']
  | keep => ['+']
  | not => "not".toList

end UnaryOp

namespace BinaryOp

/-- The name of an operator. -/
def name : BinaryOp → Text
  | add => ['+']
  | subtract => ['-']
  | multiply => ['*']
  | divide => ['/']
  | modulo => "mod".toList
  | power => ['^']
  | equal => ['=']
  | unequal => "<>".toList
  | less => ['<']
  | lessEqual => "<=".toList
  | greater => ['>']
  | greaterEqual => ">=".toList

/-- All operators between two operands that are both evaluated. -/
def all : List BinaryOp :=
  [add, subtract, multiply, divide, modulo, power,
   equal, unequal, less, lessEqual, greater, greaterEqual]

/-- The operator of a name. -/
def ofName? (name : Text) : Option BinaryOp :=
  all.find? (·.name == name)

end BinaryOp

namespace LogicOp

/-- The name of an operator. -/
def name : LogicOp → Text
  | and => "and".toList
  | or => "or".toList

end LogicOp

end Pseudocode
