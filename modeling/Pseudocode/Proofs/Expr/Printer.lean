import Pseudocode.Proofs.Expr.Grammar
import Pseudocode.Proofs.Token.Written

/-!
# Printing expressions

An expression is printed as a row of symbols, and the symbols are written with single blanks between
them. What stands in parentheses is settled by two tables.

* **Precedence** (`Phrase.binding`): from the loosest to the tightest, `O`, `Y`, `NO`, comparisons,
  sums, products, signs, powers, terms. An operand is put into parentheses exactly if it binds less
  tightly than its place asks for (`enclosed`).
* **Associativity** (`BinaryOp.leftPlace`, `BinaryOp.rightPlace`): an operator that groups to the
  left asks for its own level on its left and for a tighter one on its right. The base of a power
  has to be a term, and its exponent may be a power or have a sign of its own.

Some operators and the truth values have several spellings (`Y`, `and`, `&`; `=`, `==`), and words
may be written in any case. A `Spelling` settles on one for each; nothing in the printer depends on
which one that is.

Not every tree can be printed. `Expr.isPrintable` asks for natural numbers of at most
`Number.maxDigits` digits, strings without a double quote, and words of the scanner as names, none
of which is a word that operators or truth values are written with; the name of a function is in
small letters.
-/

namespace Pseudocode

open Grammar

/-! ### Precedence and associativity -/

/-- How tightly a phrase binds. -/
def Grammar.Phrase.binding : Phrase → Nat
  | .level .disjunction => 0
  | .level .conjunction => 1
  | .negation => 2
  | .level .comparison => 3
  | .level .sum => 4
  | .level .product => 5
  | .signed => 6
  | .power => 7
  | .term => 8

/-- The phrase that an operator before an operand makes, and that it asks for behind it. -/
def UnaryOp.phrase : UnaryOp → Phrase
  | not => .negation
  | negate | keep => .signed

namespace BinaryOp

/-- The level of an operator that groups to the left. A power does not. -/
def level? : BinaryOp → Option Level
  | add | subtract => some .sum
  | multiply | divide | modulo => some .product
  | power => none
  | equal | unequal | less | lessEqual | greater | greaterEqual => some .comparison

/-- The phrase that an operator makes. -/
def phrase (op : BinaryOp) : Phrase := op.level?.elim .power .level

/-- The phrase that an operator asks for on its left. -/
def leftPlace (op : BinaryOp) : Phrase := op.level?.elim .term .level

/-- The phrase that an operator asks for on its right. -/
def rightPlace (op : BinaryOp) : Phrase := op.level?.elim .signed operand

end BinaryOp

/-- The level of a logical operator. -/
def LogicOp.level : LogicOp → Level
  | and => .conjunction
  | or => .disjunction

/-- The phrase that an expression is by its outermost operator. -/
def Expr.phrase : Expr → Phrase
  | unary op _ => op.phrase
  | binary op _ _ => op.phrase
  | logic op _ _ => .level op.level
  | number _ | text _ | bool _ | .variable _ | element _ _ | call _ _ => .term

/-! ### Spellings -/

/-- The symbols that an operator before an operand can be written with. -/
def UnaryOp.IsSpelled (op : UnaryOp) (s : Symbol) : Prop :=
  match op with
  | negate => s = .operator .minus
  | keep => s = .operator .plus
  | not => s = .operator .tilde ∨ IsWord "no" s ∨ IsWord "not" s

/-- The symbols that an operator between operands can be written with. -/
def BinaryOp.IsSpelled (op : BinaryOp) (s : Symbol) : Prop :=
  match op.level? with
  | some l => ∀ a b, Joins a b l s (.binary op a b)
  | none => s = .operator .caret ∨ s = .operator .starStar

/-- The symbols that a logical operator can be written with. -/
def LogicOp.IsSpelled (op : LogicOp) (s : Symbol) : Prop :=
  ∀ a b, Joins a b op.level s (.logic op a b)

/-- A choice among the spellings of operators and truth values. -/
structure Spelling where
  truth : Bool → Text
  unary : UnaryOp → Symbol
  binary : BinaryOp → Symbol
  logic : LogicOp → Symbol
  truth_lower (b : Bool) : (truth b).lower = (if b then "verdadero" else "falso").toList
  truth_isIdentifier (b : Bool) : (truth b).isIdentifier = true
  unary_isSpelled (op : UnaryOp) : op.IsSpelled (unary op)
  unary_isWritable (op : UnaryOp) : (unary op).isWritable = true
  binary_isSpelled (op : BinaryOp) : op.IsSpelled (binary op)
  binary_isWritable (op : BinaryOp) : (binary op).isWritable = true
  logic_isSpelled (op : LogicOp) : op.IsSpelled (logic op)
  logic_isWritable (op : LogicOp) : (logic op).isWritable = true

/-- The spelling with as many words as there are: `Y`, `O`, `NO` and `mod`, `VERDADERO` and
`FALSO`. -/
def Spelling.wordy : Spelling where
  truth b := (if b then "VERDADERO" else "FALSO").toList
  unary
    | .negate => .operator .minus
    | .keep => .operator .plus
    | .not => .word "NO".toList
  binary
    | .add => .operator .plus
    | .subtract => .operator .minus
    | .multiply => .operator .star
    | .divide => .operator .slash
    | .modulo => .word "mod".toList
    | .power => .operator .caret
    | .equal => .operator .equal
    | .unequal => .operator .lessGreater
    | .less => .operator .less
    | .lessEqual => .operator .lessEqual
    | .greater => .operator .greater
    | .greaterEqual => .operator .greaterEqual
  logic
    | .and => .word "Y".toList
    | .or => .word "O".toList
  truth_lower b := by cases b <;> decide
  truth_isIdentifier b := by cases b <;> decide
  unary_isSpelled op := by
    cases op with
    | negate => rfl
    | keep => rfl
    | not => exact .inr (.inl ⟨_, rfl, by decide⟩)
  unary_isWritable op := by cases op <;> decide
  binary_isSpelled op := by
    cases op with
    | modulo => exact fun _ _ => .mod ⟨_, rfl, by decide⟩
    | power => exact .inl rfl
    | _ => exact fun _ _ => by constructor
  binary_isWritable op := by cases op <;> decide
  logic_isSpelled op := by
    cases op with
    | and => exact fun _ _ => .y ⟨_, rfl, by decide⟩
    | or => exact fun _ _ => .o ⟨_, rfl, by decide⟩
  logic_isWritable op := by cases op <;> decide

/-! ### The printer -/

/-- The symbols of an expression in a place: in parentheses if the expression binds less tightly
than the place asks for. -/
def enclosed (place : Phrase) (e : Expr) (symbols : List Symbol) : List Symbol :=
  if e.phrase.binding < place.binding then .paren true :: (symbols ++ [.paren false]) else symbols

namespace Expr

mutual

/-- The symbols of an expression. -/
def symbols (sp : Spelling) : Expr → List Symbol
  | number n => [.number n]
  | text content => [.string content]
  | bool b => [.word (sp.truth b)]
  | .variable name => [.word name]
  | element array index => .word array :: .bracket true :: (symbols sp index ++ [.bracket false])
  | unary op e => sp.unary op :: enclosed op.phrase e (symbols sp e)
  | binary op left right =>
    enclosed op.leftPlace left (symbols sp left) ++
      sp.binary op :: enclosed op.rightPlace right (symbols sp right)
  | logic op left right =>
    enclosed (.level op.level) left (symbols sp left) ++
      sp.logic op :: enclosed (operand op.level) right (symbols sp right)
  | call function arguments =>
    .word function :: .paren true :: (symbolsOfAll sp arguments ++ [.paren false])

/-- The symbols of arguments, with commas between them. -/
def symbolsOfAll (sp : Spelling) : List Expr → List Symbol
  | [] => []
  | [e] => symbols sp e
  | e :: rest => symbols sp e ++ .comma :: symbolsOfAll sp rest

end

/-- An expression as it is written: its symbols with single blanks between them. -/
def written (sp : Spelling) (e : Expr) : Text :=
  Text.join [' '] ((e.symbols sp).map Symbol.written)

end Expr

/-! ### What can be printed -/

/-- The words that operators and truth values are written with. -/
def reservedWords : List String :=
  ["o", "or", "y", "and", "no", "not", "mod", "verdadero", "falso"]

/-- Whether a text can only be read as a name: a word of the scanner that is not reserved, in
whatever case. -/
def Text.isFreeName (t : Text) : Bool :=
  t.isIdentifier && reservedWords.all fun w => t.lower != w.toList

namespace Expr

mutual

/-- Whether an expression can be printed. -/
def isPrintable : Expr → Bool
  | number n => (Symbol.number n).isWritable
  | text content => (Symbol.string content).isWritable
  | bool _ => true
  | .variable name => name.isFreeName
  | element array index => array.isFreeName && index.isPrintable
  | unary _ e => e.isPrintable
  | binary _ left right => left.isPrintable && right.isPrintable
  | logic _ left right => left.isPrintable && right.isPrintable
  | call function arguments =>
    function.isFreeName && function.lower == function && areAllPrintable arguments

/-- Whether all of some expressions can be printed. -/
def areAllPrintable : List Expr → Bool
  | [] => true
  | e :: rest => e.isPrintable && areAllPrintable rest

end

end Expr

end Pseudocode
