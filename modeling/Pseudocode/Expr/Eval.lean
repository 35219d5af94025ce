import Pseudocode.Expr.Builtin
import Pseudocode.Expr.Parser
import Pseudocode.Expr.Parts
import Pseudocode.Store.Basic

/-!
# Evaluation

Expressions are evaluated against a store that they only read. An evaluation can draw random
numbers, and it can report faults that do not stop it: undefined names in a list that is to be
written. What was drawn and reported is kept also when a fault ends the evaluation.
-/

namespace Pseudocode

/-- What an evaluation can see: the variables, the random numbers still to be drawn, and whether
faults that need not stop it are collected. -/
structure Scope where
  store : Store
  draws : Nat → Nat
  collects : Bool

/-- What an evaluation leaves behind: how many random numbers were drawn, and the faults that were
reported, in order. -/
structure Progress where
  drawn : Nat
  reports : Array Fault

/-- An evaluation. -/
abbrev Eval (α : Type) := ReaderT Scope (ExceptT Fault (StateM Progress)) α

namespace Eval

/-- A random number below the bound. -/
def draw (bound : Nat) : Eval Nat := do
  let scope ← read
  let progress ← get
  set { progress with drawn := progress.drawn + 1 }
  return scope.draws progress.drawn % bound

/-- Reports a fault and goes on, or stops with it if faults are not collected. -/
def report (fault : Fault) : Eval Unit := do
  if (← read).collects then
    modify fun progress => { progress with reports := progress.reports.push fault }
  else throw fault

/-- Carries on with the result of a computation that may fail. -/
def ofExcept {α : Type} : Except Fault α → Eval α
  | .ok a => pure a
  | .error fault => throw fault

end Eval

namespace Builtin

/-- A random natural number below `n`, or zero if `n` is below one. -/
def randomBelow (n : Number) : Eval Value := do
  if n.isAtLeast 1 then
    let bound ← Eval.ofExcept n.truncate
    return .int (← Eval.draw bound.toNat)
  else return .int 0

/-- The value of a call. The number of arguments has been checked. -/
def apply (f : Builtin) (name : Text) (arguments : List Value) : Eval Value :=
  match f, arguments with
  | ofNumber g, [v] => do
    let n ← Eval.ofExcept (v.requireNumber name)
    return .number (← Eval.ofExcept (g.apply n))
  | random, [v] => do randomBelow (← Eval.ofExcept (v.requireNumber name))
  | ofText g, [v] => Eval.ofExcept (g.apply v)
  | substring, [v, first, last] => Eval.ofExcept (substringOf v first last)
  | concatenate, [a, b] => Eval.ofExcept (a.concatenate b)
  | toText, [v] => do return .text (← Eval.ofExcept v.display)
  | _, _ => throw (.ofProblem (.wrongArity name f.arity arguments.length))

end Builtin

namespace Expr

mutual

/-- The value of an expression. -/
def eval : Expr → Eval Value
  | number n => return .number n
  | text content => return .text content
  | bool b => return .bool b
  | .variable name => do
    let scope ← read
    return (← Eval.ofExcept (scope.store.lookup name false)).value
  | element array index => do
    let i ← eval index
    let scope ← read
    Eval.ofExcept (scope.store.getElement array i)
  | unary op operand => do
    let v ← eval operand
    Eval.ofExcept (op.apply v)
  | binary op left right => do
    let a ← eval left
    let b ← eval right
    Eval.ofExcept (op.apply a b)
  | logic .and left right => do
    let a ← eval left
    if a.isTrue then return .bool (← eval right).isTrue else return .bool false
  | logic .or left right => do
    let a ← eval left
    if a.isTrue then return .bool true else return .bool (← eval right).isTrue
  | call function arguments =>
    match Builtin.ofName? function with
    | none => throw (.ofProblem (.unknownFunction function))
    | some f =>
      if arguments.length = f.arity then do
        let values ← evalAll arguments
        f.apply function values
      else throw (.ofProblem (.wrongArity function f.arity arguments.length))

/-- The values of expressions, from left to right. -/
def evalAll : List Expr → Eval (List Value)
  | [] => return []
  | e :: rest => do
    let v ← eval e
    let vs ← evalAll rest
    return v :: vs

end

end Expr

namespace Eval

/-- The value of the expression that a text is. -/
def expression (source : Text) : Eval Value := do
  let tree ← ofExcept (Expr.parse source)
  tree.eval

/-- Whether a text is a string in quotes as a whole. -/
def isQuotedLiteral (t : Text) : Bool :=
  match t with
  | q :: rest => isQuote q && rest.getLast? == some q && !rest.dropLast.contains q
  | [] => false

/-- What one part of a list adds to the line that is written. A string stands for what is between
its quotes, the name of a variable for its value, and any other name is undefined: it is reported
and shown with a question mark. Anything else is evaluated. -/
def part (t : Text) : Eval Text := do
  if isQuotedLiteral t then return (t.drop 1).dropLast
  else match (← read).store.get? t with
    | some v => ofExcept v.value.display
    | none =>
      if Text.isName t && (truthWord? t.lower).isNone then do
        report (.undefinedVariable t false)
        return '[' :: t ++ ['?', ']']
      else do
        let v ← expression t
        ofExcept v.display

/-- What the parts of a list add, from left to right. -/
def parts : List Text → Eval (List Text)
  | [] => return []
  | t :: rest => do
    let shown ← part t
    let more ← parts rest
    return shown :: more

/-- The line that a list stands for: its parts with blanks between them. -/
def concatenation (source : Text) : Eval Text := do
  let shown ← parts (splitParts source)
  return Text.join [' '] shown

/-- Whether a text is a list with a string in it rather than one expression. -/
def isConcatenation (source : Text) : Bool :=
  source.any isQuote && decide (1 < (splitParts source).length)

/-- The value that a text stands for: a list with a string in it is the line it stands for, and
anything else is an expression. -/
def value (source : Text) : Eval Value := do
  if isConcatenation source then return .text (← concatenation source)
  else expression source

/-- Whether a condition holds. A condition that is malformed, or whose operands do not fit, does
not hold; any other fault remains. -/
def condition (source : Text) : Eval Bool :=
  tryCatch (do return (← expression source).isTrue) fun
    | .expression _ _ => return false
    | fault => throw fault

end Eval

/-- Carries out an evaluation in a scope, after the given number of random numbers were drawn. -/
def Eval.run {α : Type} (e : Eval α) (scope : Scope) (drawn : Nat) : Except Fault α × Progress :=
  (ReaderT.run e scope).run.run ⟨drawn, #[]⟩

end Pseudocode
