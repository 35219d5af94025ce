import Pseudocode.Number

/-!
# Tokens

The symbols that expressions are made of, each with the column of its first character.
-/

namespace Pseudocode

/-- The operator signs, by their spelling. -/
inductive Operator where
  | starStar | lessEqual | greaterEqual | lessGreater | bangEqual | equalEqual
  | equal | less | greater | plus | minus | star | slash | caret | percent
  | ampersand | bar | tilde
deriving Repr, DecidableEq

namespace Operator

/-- The spelling of an operator sign. -/
def text : Operator → Text
  | starStar => ['*', '*']
  | lessEqual => ['<', '=']
  | greaterEqual => ['>', '=']
  | lessGreater => ['<', '>']
  | bangEqual => ['!', '=']
  | equalEqual => ['=', '=']
  | equal => ['=']
  | less => ['<']
  | greater => ['>']
  | plus => ['+']
  | minus => ['-']
  | star => ['*']
  | slash => ['/']
  | caret => ['^']
  | percent => ['%']
  | ampersand => ['&']
  | bar => ['|']
  | tilde => ['~']

/-- The operator signs, longer spellings first. -/
def all : List Operator :=
  [starStar, lessEqual, greaterEqual, lessGreater, bangEqual, equalEqual,
   equal, less, greater, plus, minus, star, slash, caret, percent, ampersand, bar, tilde]

/-- The longest operator sign at the start of a text. -/
def leading? (t : Text) : Option Operator :=
  all.find? fun o => o.text.isPrefixOf t

end Operator

/-- A symbol of an expression. Brackets are told apart by whether they open. -/
inductive Symbol where
  | word (name : Text)
  | number (n : Number)
  | string (content : Text)
  | paren (opens : Bool)
  | bracket (opens : Bool)
  | comma
  | operator (o : Operator)
deriving Repr, DecidableEq

/-- What a symbol is called in a message: its value, without the quotes of a string. -/
def Symbol.text : Symbol → Text
  | word name => name
  | number (.int n) => Text.ofInt n
  | number (.real x) => Number.exactLayout.render x
  | string content => content
  | paren opens => [if opens then '(' else ')']
  | bracket opens => [if opens then '[' else ']']
  | comma => [',']
  | operator o => o.text

/-- A symbol and the column of its first character, counted from one. -/
structure Token where
  symbol : Symbol
  column : Nat
deriving Repr, DecidableEq

/-- The tokens of a text, and the column just behind its last character. -/
structure Scan where
  tokens : List Token
  finish : Nat
deriving Repr, DecidableEq

end Pseudocode
