import Pseudocode.Expr.Basic
import Pseudocode.Text.Case
import Pseudocode.Token.Lexer

/-!
# Reading expressions

Expressions are read by recursive descent. From the loosest to the tightest level: `O`, `Y`, `NO`,
comparisons, sums, products, signs, powers. The levels between two operands group to the left, a
power groups to the right, and its exponent may have a sign of its own.

Every reader takes a bound on the depth of the descent. `Expr.ofTokens` sets the bound from the
number of tokens, high enough never to be reached.
-/

namespace Pseudocode

/-- The levels of operators that group to the left. -/
inductive Level where
  | disjunction | conjunction | comparison | sum | product
deriving Repr, DecidableEq

namespace Symbol

/-- Whether a symbol is one of the given words, in whatever case. -/
def isWord (words : List String) : Symbol → Bool
  | word name => words.any fun w => name.lower == w.toList
  | _ => false

/-- Whether a symbol can start an operand, so that a `NO` before it negates it. -/
def startsOperand : Symbol → Bool
  | number _ | string _ | word _ => true
  | paren opens => opens
  | operator o => o == .minus || o == .plus || o == .tilde
  | _ => false

end Symbol

namespace Level

/-- How the operands on both sides of an operator of a level are put together; `none` if the
symbol is no operator of the level. -/
def combine? (level : Level) (s : Symbol) : Option (Expr → Expr → Expr) :=
  match level with
  | disjunction =>
    if s.isWord ["o", "or"] || s == .operator .bar then some (.logic .or) else none
  | conjunction =>
    if s.isWord ["y", "and"] || s == .operator .ampersand then some (.logic .and) else none
  | comparison =>
    match s with
    | .operator .equal | .operator .equalEqual => some (.binary .equal)
    | .operator .lessGreater | .operator .bangEqual => some (.binary .unequal)
    | .operator .less => some (.binary .less)
    | .operator .lessEqual => some (.binary .lessEqual)
    | .operator .greater => some (.binary .greater)
    | .operator .greaterEqual => some (.binary .greaterEqual)
    | _ => none
  | sum =>
    match s with
    | .operator .plus => some (.binary .add)
    | .operator .minus => some (.binary .subtract)
    | _ => none
  | product =>
    match s with
    | .operator .star => some (.binary .multiply)
    | .operator .slash => some (.binary .divide)
    | .operator .percent => some (.binary .modulo)
    | _ => if s.isWord ["mod"] then some (.binary .modulo) else none

end Level

/-- What a reader gives: a tree and the tokens behind it. -/
abbrev Reading := Except Problem (Expr × List Token)

/-- The truth value that a word stands for. -/
def truthWord? (name : Text) : Option Bool :=
  if name == "verdadero".toList then some true
  else if name == "falso".toList then some false
  else none

/-- Passes over a closing symbol. -/
def expectClosing (s : Symbol) (shown : Char) : List Token → Except Problem (List Token)
  | t :: rest => if t.symbol == s then .ok rest else .error (.expected shown)
  | [] => .error (.expected shown)

mutual

/-- An operand of the given level. -/
def readOperand : Nat → Level → List Token → Reading
  | 0, _, _ => .error .incomplete
  | depth + 1, .disjunction, ts => readLevel depth .conjunction ts
  | depth + 1, .conjunction, ts => readNegation depth ts
  | depth + 1, .comparison, ts => readLevel depth .sum ts
  | depth + 1, .sum, ts => readLevel depth .product ts
  | depth + 1, .product, ts => readSigned depth ts

/-- One or more operands of a level with its operators between them. -/
def readLevel : Nat → Level → List Token → Reading
  | 0, _, _ => .error .incomplete
  | depth + 1, level, ts => do
    let (left, rest) ← readOperand depth level ts
    readChain depth level left rest

/-- The operators and operands of a level that follow a left operand. -/
def readChain : Nat → Level → Expr → List Token → Reading
  | 0, _, _, _ => .error .incomplete
  | _ + 1, _, left, [] => .ok (left, [])
  | depth + 1, level, left, t :: ts =>
    match level.combine? t.symbol with
    | none => .ok (left, t :: ts)
    | some combine => do
      let (right, rest) ← readOperand depth level ts
      readChain depth level (combine left right) rest

/-- A comparison, with any number of negations before it. A word `NO` that no operand follows is a
name. -/
def readNegation : Nat → List Token → Reading
  | 0, _ => .error .incomplete
  | depth + 1, ts =>
    match ts with
    | [] => readLevel depth .comparison []
    | t :: rest =>
      if t.symbol == .operator .tilde ||
          (t.symbol.isWord ["no", "not"] && rest.head?.any (·.symbol.startsOperand)) then do
        let (operand, rest) ← readNegation depth rest
        return (.unary .not operand, rest)
      else readLevel depth .comparison (t :: rest)

/-- A power, with any number of signs before it. -/
def readSigned : Nat → List Token → Reading
  | 0, _ => .error .incomplete
  | depth + 1, ts =>
    match ts with
    | [] => readPower depth []
    | t :: rest =>
      if t.symbol == .operator .minus then do
        let (operand, rest) ← readSigned depth rest
        return (.unary .negate operand, rest)
      else if t.symbol == .operator .plus then do
        let (operand, rest) ← readSigned depth rest
        return (.unary .keep operand, rest)
      else readPower depth (t :: rest)

/-- A term, raised to a power or not. -/
def readPower : Nat → List Token → Reading
  | 0, _ => .error .incomplete
  | depth + 1, ts => do
    let (base, rest) ← readTerm depth ts
    match rest with
    | [] => return (base, [])
    | t :: more =>
      if t.symbol == .operator .caret || t.symbol == .operator .starStar then do
        let (exponent, rest) ← readSigned depth more
        return (.binary .power base exponent, rest)
      else return (base, t :: more)

/-- A literal, a name, an array element, a call or an expression in parentheses. -/
def readTerm : Nat → List Token → Reading
  | 0, _ => .error .incomplete
  | _ + 1, [] => .error .incomplete
  | depth + 1, t :: ts =>
    match t.symbol with
    | .number n => .ok (.number n, ts)
    | .string content => .ok (.text content, ts)
    | .word name =>
      match truthWord? name.lower with
      | some b => .ok (.bool b, ts)
      | none =>
        match ts with
        | [] => .ok (.variable name, [])
        | u :: more =>
          if u.symbol == .paren true then do
            let (arguments, rest) ← readArguments depth more
            return (.call name.lower arguments, rest)
          else if u.symbol == .bracket true then do
            let (index, rest) ← readLevel depth .disjunction more
            let rest ← expectClosing (.bracket false) ']' rest
            return (.element name index, rest)
          else .ok (.variable name, u :: more)
    | .paren true => do
      let (inner, rest) ← readLevel depth .disjunction ts
      let rest ← expectClosing (.paren false) ')' rest
      return (inner, rest)
    | s => .error (.unexpectedSymbol s.text t.column)

/-- The arguments of a call behind its opening parenthesis, up to the closing one. -/
def readArguments : Nat → List Token → Except Problem (List Expr × List Token)
  | 0, _ => .error .incomplete
  | depth + 1, ts =>
    match ts with
    | [] => readArgumentList depth []
    | t :: rest =>
      if t.symbol == .paren false then .ok ([], rest) else readArgumentList depth (t :: rest)

/-- One or more arguments with commas between them, up to the closing parenthesis. -/
def readArgumentList : Nat → List Token → Except Problem (List Expr × List Token)
  | 0, _ => .error .incomplete
  | depth + 1, ts => do
    let (argument, rest) ← readLevel depth .disjunction ts
    match rest with
    | [] => .error (.expected ')')
    | t :: more =>
      if t.symbol == .comma then do
        let (arguments, rest) ← readArgumentList depth more
        return (argument :: arguments, rest)
      else do
        let rest ← expectClosing (.paren false) ')' (t :: more)
        return ([argument], rest)

end

namespace Expr

/-- How deep a descent over the given tokens can go: at most sixteen readers are entered between
two tokens. -/
def depthBound (ts : List Token) : Nat := 16 * (ts.length + 1)

/-- The expression that a list of tokens is as a whole. -/
def ofTokens (ts : List Token) : Except Problem Expr :=
  if ts.isEmpty then .error .empty
  else do
    let (tree, rest) ← readLevel (depthBound ts) .disjunction ts
    match rest with
    | [] => return tree
    | t :: _ => .error (.unexpectedSymbol t.symbol.text t.column)

/-- The expression that a text is as a whole. -/
def parse (source : Text) : Except Fault Expr := do
  let scanned ← scan source
  match ofTokens scanned.tokens with
  | .ok tree => return tree
  | .error problem => throw (.within source problem)

end Expr

end Pseudocode
