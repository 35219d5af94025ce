import Pseudocode.Expr.Eval
import Pseudocode.Trace.Basic

/-!
# What a run deals with

A run has surroundings, which it cannot change: who answers its questions, who observes its
variables, which random numbers it draws, and how often a loop may repeat. Its state is everything
that it leaves behind. An `Exec` is a part of a run: it may end in a fault, and what it did before
stays done.
-/

namespace Pseudocode

/-- How the source of input or the observer of the variables breaks off a run. -/
inductive Objection where
  /-- It refuses in the name of the program. -/
  | refuse (message : Text)
  /-- It fails. -/
  | fail (message : Text)
deriving Repr, DecidableEq

namespace Objection

/-- A bare message is one of failure. -/
instance : Coe Text Objection := ⟨fail⟩

/-- The fault that an objection is to the run. -/
def fault : Objection → Fault
  | refuse message => .refused message
  | fail message => .failed message

end Objection

/-- What the source of input does when it is asked: it may cancel the run, and then it answers or
breaks off. -/
structure Reply where
  cancels : Bool
  outcome : Except Objection Text

namespace Reply

/-- It answers. -/
def answer (t : Text) : Reply := ⟨false, .ok t⟩

/-- It cancels the run and then answers. -/
def cancel (t : Text) : Reply := ⟨true, .ok t⟩

/-- It refuses in the name of the program. -/
def refuse (message : Text) : Reply := ⟨false, .error (.refuse message)⟩

/-- It fails. -/
def fail (message : Text) : Reply := ⟨false, .error (.fail message)⟩

end Reply

/-- What the observer of the variables does when it is told of a change: it may cancel the run, and
it may break off. -/
structure Notice where
  cancels : Bool
  failure : Option Objection
deriving Repr, DecidableEq

/-- The surroundings of a run. -/
structure Surroundings where
  /-- What the source of input does when it is asked for the first time, the second time and so on;
  without a source every answer is empty and no question is asked. -/
  replies : Option (Nat → Reply)
  /-- What the observer does at the first notice, the second and so on. -/
  notices : Option (Nat → Notice)
  /-- The random numbers. -/
  draws : Nat → Nat
  /-- How many times a loop with a condition may repeat. -/
  maxPasses : Nat

/-- What a run has done so far. -/
structure RunState where
  store : Store
  trace : Trace
  /-- The lines that were written. -/
  output : Array Text
  /-- The messages of the faults that were found. -/
  errors : Array Text
  /-- Whether the run was cancelled. -/
  cancelled : Bool
  /-- The questions that were asked. -/
  prompts : Array Text
  /-- The states of the store that the observer was told of. -/
  snapshots : Array Store
  /-- How many random numbers were drawn. -/
  drawn : Nat

namespace RunState

/-- A run that has only started. -/
def initial : RunState where
  store := Store.empty
  trace := Trace.empty.add .start "Inicio".toList
  output := #[]
  errors := #[]
  cancelled := false
  prompts := #[]
  snapshots := #[]
  drawn := 0

/-- Whether nothing more is to be done. -/
def halted (s : RunState) : Bool := !s.errors.isEmpty || s.cancelled

/-- Notes down the message of a fault that happened on the given line. -/
def report (s : RunState) (line : Nat) (fault : Fault) : RunState :=
  let message :=
    if fault.isOfLanguage then fault.message
    else "Error en línea ".toList ++ Text.ofNat line ++ ": ".toList ++ fault.message
  { s with errors := s.errors.push message }

end RunState

/-- A part of a run. -/
abbrev Exec (α : Type) := ReaderT Surroundings (ExceptT Fault (StateM RunState)) α

namespace Exec

/-- Carries out a part of a run. -/
def run {α : Type} (e : Exec α) (around : Surroundings) (s : RunState) :
    Except Fault α × RunState :=
  (ReaderT.run e around).run.run s

/-- Carries on with the result of a computation that may fail. -/
def ofExcept {α : Type} : Except Fault α → Exec α
  | .ok a => pure a
  | .error fault => throw fault

/-- Evaluates something with the variables as they are. Faults that were reported on the way are
noted down, also if the evaluation then fails. -/
def evaluate {α : Type} (e : Eval α) : Exec α := do
  let around ← read
  let s ← get
  let (result, progress) := e.run ⟨s.store, around.draws, true⟩ s.drawn
  set { s with
    drawn := progress.drawn
    errors := s.errors ++ progress.reports.map Fault.message }
  ofExcept result

/-- Tells the observer of the variables as they are now. -/
def notify : Exec Unit := do
  match (← read).notices with
  | none => return
  | some notices =>
    let s ← get
    let notice := notices s.snapshots.size
    set { s with
      snapshots := s.snapshots.push s.store
      cancelled := s.cancelled || notice.cancels }
    match notice.failure with
    | some objection => throw objection.fault
    | none => return

/-- Carries out a change of the variables and tells the observer. -/
def update (change : Change) : Exec Unit := do
  let s ← get
  let store ← ofExcept (s.store.apply change)
  set { s with store }
  notify

/-- Adds a node to the trace. -/
def addNode (kind : NodeKind) (label : Text) : Exec Unit :=
  modify fun s => { s with trace := s.trace.add kind label }

/-- Writes a line. -/
def write (line : Text) : Exec Unit :=
  modify fun s => { s with output := s.output.push line }

/-- Asks the source of input. -/
def ask (prompt : Text) : Exec Text := do
  match (← read).replies with
  | none => return []
  | some replies =>
    let s ← get
    let reply := replies s.prompts.size
    set { s with
      prompts := s.prompts.push prompt
      cancelled := s.cancelled || reply.cancels }
    match reply.outcome with
    | .ok t => return t
    | .error objection => throw objection.fault

end Exec

end Pseudocode
