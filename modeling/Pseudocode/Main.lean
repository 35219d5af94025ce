import Pseudocode.CommandLine.Session
import Pseudocode.Draws

/-!
# The command

Runs the program of a file and talks with the user at the terminal. A session is a function of the
lines that are typed in. So the command repeats it with one more line each time it asks for one, and
shows what is new.
-/

namespace Pseudocode.CommandLine

/-- Shows a text at once. -/
def put (t : Text) : IO Unit := do
  let out ← IO.getStdout
  out.putStr (String.ofList t)
  out.flush

/-- A typed line without the line feed at its end. -/
def withoutFeed (line : String) : Text :=
  let t := line.toList
  if t.getLast? = some '\n' then t.dropLast else t

/-- Asks for lines until the program needs no more of them or they are used up. -/
partial def converse (s : Session) (typed : List Text) : IO RunState := do
  let run := s.state typed
  match (s.questions run).drop typed.length with
  | [] => return run
  | question :: more =>
    put question
    let answer ← (← IO.getStdin).getLine
    if answer.isEmpty then
      put more.flatten
      return run
    else converse s (typed ++ [withoutFeed answer])

/-- The status that stands for an ending; what went wrong is told on the error channel. -/
def conclude : Ending → IO UInt32
  | .status n => return n.toUInt32
  | .path path fault => do
    IO.eprintln (String.ofList (fault.message path))
    return 1
  | .malformed m => do
    IO.eprintln (String.ofList m.message)
    return 1
  | .fault f => do
    IO.eprintln (String.ofList f.message)
    return 1

/-- Does what is left to do at the end of a run. -/
def carryOut (c : Closing) : IO UInt32 := do
  put c.shown
  if let some (path, trace) := c.trace then
    IO.FS.writeFile (String.ofList path) (String.ofList trace)
    put (savedNote path)
  conclude c.ending

/-- The bytes of a file, if it exists. -/
def bytesOf (file : String) : IO (Option (List UInt8)) := do
  try
    return some (← IO.FS.readBinFile file).toList
  catch
    | .noFileOrDirectory .. => return none
    | e => throw e

/-- Carries out a command. -/
def perform (c : Command) : IO UInt32 := do
  match ← bytesOf (String.ofList c.file) with
  | none =>
    let o := unread c.file .missing
    put o.shown
    conclude o.ending
  | some bytes =>
    match sourceOf bytes with
    | .error m => conclude (.malformed m)
    | .ok source =>
      let s : Session := ⟨c, source, drawsOf (← IO.rand 0 (Nat.pow 2 64 - 1))⟩
      put s.opening
      carryOut (s.closing (← converse s []))

end Pseudocode.CommandLine

open Pseudocode.CommandLine in
/-- Runs the program that the arguments name. -/
def main (arguments : List String) : IO UInt32 := do
  match Request.ofArguments (arguments.map String.toList) with
  | .run command => perform command
  | .help =>
    IO.print usage
    return 0
  | .refused =>
    IO.eprint usage
    return refusedStatus.toUInt32
