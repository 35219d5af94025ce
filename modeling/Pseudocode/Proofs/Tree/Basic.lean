import Pseudocode.Proofs.Block.Roles
import Pseudocode.Proofs.Tree.Headers
import Pseudocode.Run.Machine

/-!
# Structured programs

Programs as trees: sequences of simple lines and of blocks, which are nested to any depth. A tree
has two readings. Flattened to lines (`Block.lines`), it is a program for the machine, which finds
its blocks by searching the lines and runs them on a stack of frames. And it has a meaning of its
own (`Block.exec`), a function on the states of a run by recursion on the tree, with no positions,
no searches and no stack:

* a sequence runs its items one after the other, and **nothing begins in a run that is halted**;
* a loop with a condition runs its body while the condition holds, at most so many times; a counting
  loop runs it once for each value of its counter;
* a conditional runs the body of **the first clause whose condition holds**, or else the last one if
  that has no condition;
* a choice runs the body of **the first group that has the value of the subject**, or else the
  default.

A fault is noted down with the number of the line of the statement, or of the header of the loop
that asked for its next pass.

Headers have their canonical texts; the other lines of a tree may be any that are seen in their
roles, and in no others. What may stand before the groups of a choice is left open (`Marks`).
-/

namespace Pseudocode.Structured

open Exec

/-- A line that is seen in a role, and in no other. -/
abbrev LineAs (r : Role) := { l : Line // Plays l r }

mutual

/-- A sequence of items. -/
inductive Block (Marks : Line → Mark → Prop) where
  | nil
  | cons (item : Item Marks) (rest : Block Marks)

/-- A simple line or a block. A header is given by the number of its line and its expressions. -/
inductive Item (Marks : Line → Mark → Prop) where
  | simple (line : LineAs .plain)
  | whileLoop (number : Nat) (condition : Operand) (body : Block Marks)
      (close : LineAs (.closes .mientras))
  | forLoop (number : Nat) (counter : Counter) (first last : Operand) (step : Option Operand)
      (body : Block Marks) (close : LineAs (.closes .para))
  | conditional (number : Nat) (condition : Operand) (body : Block Marks) (chain : Chain Marks)
  | choice (number : Nat) (subject : Operand) (groups : Groups Marks)
      (close : LineAs (.closes .segun))

/-- What follows a body of a conditional: the end, `SiNo` with a last body, or `SiNo Si` with a
condition, a body and what follows that. -/
inductive Chain (Marks : Line → Mark → Prop) where
  | done (close : LineAs (.closes .si))
  | otherwise (line : LineAs (.clause false)) (body : Block Marks) (close : LineAs (.closes .si))
  | elseIf (number : Nat) (condition : Operand) (body : Block Marks) (chain : Chain Marks)

/-- The groups of a choice: each a case with its values, or a default. -/
inductive Groups (Marks : Line → Mark → Prop) where
  | nil
  | cons (mark : Mark) (line : { l : Line // Marks l mark }) (body : Block Marks)
      (rest : Groups Marks)

end

variable {Marks : Line → Mark → Prop}

/-! ### The lines of a tree -/

mutual

/-- The lines of a sequence. -/
def Block.lines : Block Marks → List Line
  | .nil => []
  | .cons item rest => item.lines ++ rest.lines

/-- The lines of an item. -/
def Item.lines : Item Marks → List Line
  | .simple line => [line.1]
  | .whileLoop number condition body close =>
    ⟨number, whileText condition⟩ :: (body.lines ++ [close.1])
  | .forLoop number counter first last step body close =>
    ⟨number, forText counter first last step⟩ :: (body.lines ++ [close.1])
  | .conditional number condition body chain =>
    ⟨number, conditionalText condition⟩ :: (body.lines ++ chain.lines)
  | .choice number subject groups close =>
    ⟨number, choiceText subject⟩ :: (groups.lines ++ [close.1])

/-- The lines that follow a body of a conditional. -/
def Chain.lines : Chain Marks → List Line
  | .done close => [close.1]
  | .otherwise line body close => line.1 :: (body.lines ++ [close.1])
  | .elseIf number condition body chain =>
    ⟨number, chainedText condition⟩ :: (body.lines ++ chain.lines)

/-- The lines of the groups of a choice. -/
def Groups.lines : Groups Marks → List Line
  | .nil => []
  | .cons _ line body rest => line.1 :: (body.lines ++ rest.lines)

end

/-! ### The meaning of statements -/

/-- Carries out a part of a run and goes on with its result. Nothing happens in a run that is
halted, and a fault is noted down with the number of the line. -/
def perform {α : Type} (around : Surroundings) (number : Nat) (e : Exec α)
    (next : α → RunState → RunState) (s : RunState) : RunState :=
  if s.halted then s
  else match e.run around s with
    | (.ok a, s') => next a s'
    | (.error fault, s') => s'.report number fault

/-- What a line says that opens no block. -/
def simpleAction (text : Text) : Action :=
  if Shape.marker.fits text then .marker
  else if let some (names, type) := Shape.declare.find? text then Action.readDeclare names type
  else if let some list := Shape.dimension.find? text then Action.readDimension list
  else if let some list := Shape.input.find? text then
    .input ((Action.namesOf list).filter (!·.isEmpty)) list
  else if let some list := Shape.output.find? text then .output list
  else if let some a := Shape.assign.find? text then Action.readAssign a
  else .skip

/-- Carries out a statement that opens no block. -/
def simple : Action → Exec Unit
  | .declare names type => declare names type
  | .dimension arrays source => dimension arrays source
  | .input names source => input names source
  | .output source => output source
  | .assign target name index source => assign target name index source
  | _ => pure ()

/-- Tests the condition of a clause, and puts the test on record. -/
def test (word condition : Text) : Exec Bool := do
  let holds ← evaluate (Eval.condition condition)
  addNode .decision (word ++ condition)
  return holds

/-- The values that a counter runs through: from `next` in steps until it has passed `last`. -/
def countFrom (next last step : Int) (h : step ≠ 0) : List Int :=
  if Passes.counts next last step = true then next :: countFrom (next + step) last step h
  else []
termination_by (Passes.counted [] next last step h).bound
decreasing_by exact Passes.bound_counted_lt h (by assumption)

/-- Finds the values that a counter is to run through, and puts the first and the last on record. -/
def startCount (counter first last : Text) (step : Option Text) : Exec (List Int) := do
  let a ← integerOf first
  let b ← integerOf last
  let ⟨s, h⟩ ← stepOf step
  addNode .decision
    ("Para ".toList ++ counter ++ " <- ".toList ++ Text.ofInt a ++ " Hasta ".toList ++ Text.ofInt b)
  return countFrom a b s h

/-- Runs a body while a condition holds, so many times at most. -/
def repeatWhile (around : Surroundings) (number : Nat) (condition : Text)
    (body : RunState → RunState) : Nat → RunState → RunState
  | 0 => id
  | left + 1 => perform around number (evaluate (Eval.condition condition)) fun holds s =>
    if holds then repeatWhile around number condition body left (body s) else s

/-- Runs a body for each value of a counter. -/
def repeatFor (around : Surroundings) (number : Nat) (counter : Text)
    (body : RunState → RunState) : List Int → RunState → RunState
  | [] => id
  | n :: rest => perform around number (update (.define counter .integer (.int n))) fun _ s =>
    repeatFor around number counter body rest (body s)

/-- The first group that has the given value, with all its values. -/
def firstMatch {α : Type} (value : Value) : List (Mark × α) → Except Fault (Option (List Value × α))
  | [] => .ok none
  | (.values vs, a) :: rest => do
    if ← anyMatches value vs then return some (vs, a) else firstMatch value rest
  | (.otherwise, _) :: rest => firstMatch value rest

/-- The default group; the last one, if there are several. -/
def fallback {α : Type} : List (Mark × α) → Option α
  | [] => none
  | (.values _, _) :: rest => fallback rest
  | (.otherwise, a) :: rest => (fallback rest).or (some a)

/-- Chooses what to do for the value of a subject, and puts the choice on record. -/
def choose (subject : Text) (groups : List (Mark × (RunState → RunState))) :
    Exec (RunState → RunState) := do
  let value ← evaluate (Eval.value subject)
  addNode .decision ("Segun ".toList ++ subject)
  match ← Exec.ofExcept (firstMatch value groups) with
  | some (values, body) =>
    addNode .process ("Caso ".toList ++ (← Exec.ofExcept (showValues values)))
    return body
  | none =>
    match fallback groups with
    | none => return id
    | some body =>
      addNode .process "De Otro Modo".toList
      return body

/-! ### The meaning of a tree -/

mutual

/-- Runs a sequence. -/
def Block.exec (around : Surroundings) : Block Marks → RunState → RunState
  | .nil => id
  | .cons item rest => fun s => rest.exec around (item.exec around s)

/-- Runs an item. -/
def Item.exec (around : Surroundings) : Item Marks → RunState → RunState
  | .simple line => perform around line.1.number (simple (simpleAction line.1.text)) fun _ => id
  | .whileLoop number condition body _ =>
    perform around number (addNode .decision ("Mientras ".toList ++ condition.text)) fun _ =>
      repeatWhile around number condition.text (body.exec around) around.maxPasses
  | .forLoop number counter first last step body _ =>
    perform around number
      (startCount counter.text first.text last.text (step.map Operand.text)) fun values =>
        repeatFor around number counter.text (body.exec around) values
  | .conditional number condition body chain =>
    perform around number (test "Si ".toList condition.text) fun holds =>
      if holds then body.exec around else chain.exec around
  | .choice number subject groups _ =>
    perform around number (choose subject.text (groups.meaning around)) fun body => body

/-- Runs what follows a body of a conditional whose condition did not hold. -/
def Chain.exec (around : Surroundings) : Chain Marks → RunState → RunState
  | .done _ => id
  | .otherwise _ body _ => body.exec around
  | .elseIf number condition body chain =>
    perform around number (test "SiNo Si ".toList condition.text) fun holds =>
      if holds then body.exec around else chain.exec around

/-- What the groups of a choice stand for, each with its mark. -/
def Groups.meaning (around : Surroundings) : Groups Marks → List (Mark × (RunState → RunState))
  | .nil => []
  | .cons mark _ body rest => (mark, body.exec around) :: rest.meaning around

end

/-- Runs a structured program from the start to the end. -/
def Block.execute (around : Surroundings) (program : Block Marks) : RunState :=
  Machine.close (program.exec around .initial)

end Pseudocode.Structured
