import Pseudocode.CommandLine.Arguments
import Pseudocode.CommandLine.Folder
import Pseudocode.Run.Machine
import Pseudocode.Trace.Csv

/-!
# Sessions

A session runs the program of a file. What it shows has three parts: an opening, which does not
depend on the run, the questions that the program asks beyond the answers of the command, and a
closing with the results. It may leave a file with the trace, and it ends with a status.
-/

namespace Pseudocode.CommandLine

/-- A text with every line break as a line feed. -/
def unifyBreaks : Text → Text
  | [] => []
  | '\r' :: '\n' :: rest => '\n' :: unifyBreaks rest
  | '\r' :: rest => '\n' :: unifyBreaks rest
  | c :: rest => c :: unifyBreaks rest

/-- The source text in the bytes of a file. -/
def sourceOf (bytes : List UInt8) : Except Utf8.Malformed Text :=
  (Utf8.decode bytes).map unifyBreaks

/-- The path of a file without the extension of its name. Points at the start of the name start no
extension. -/
def withoutExtension (path : Text) : Text :=
  let name := (path.reverse.takeWhile (· != '/')).reverse
  let folder := path.take (path.length - name.length)
  let stem := (name.reverse.dropWhile (· != '.')).drop 1 |>.reverse
  if stem.any (· != '.') then folder ++ stem else path

/-- The file that the trace of a program is saved in. -/
def traceFile (path : Text) : Text := withoutExtension path ++ ".csv".toList

/-- A line that is shown. -/
def line (t : Text) : Text := t ++ ['\n']

/-- Lines that are shown, each behind the given text. -/
def linesBehind (margin : Text) (ts : List Text) : Text := ts.flatMap fun t => line (margin ++ t)

/-- A part of what is shown: an empty line, a title and lines with a margin. -/
def part (title : String) (ts : List Text) : Text :=
  line ('\n' :: title.toList) ++ linesBehind "  ".toList ts

/-- The statements of a program by their positions and kinds. -/
def kinds (program : Program) : List Text :=
  program.statements.toList.mapIdx fun i st =>
    '[' :: Text.ofNat i ++ "] ".toList ++ st.action.kindName.toList

/-- How often a loop with a condition may repeat. -/
def maxPasses : Nat := 100

/-- A session: the command, the source text of its file, and the random numbers. -/
structure Session where
  command : Command
  source : Text
  draws : Nat → Nat

/-- How a session ends. -/
inductive Ending where
  /-- With a status. -/
  | status (n : Nat)
  /-- A path does not lead to a file. -/
  | path (path : Text) (fault : PathFault)
  /-- The file is no text. -/
  | malformed (m : Utf8.Malformed)
  /-- A variable cannot be shown. -/
  | fault (f : Fault)
deriving Repr, DecidableEq

/-- What there is left to do at the end of a run: what to show, the trace to save under a path, and
how to end if that can be done. -/
structure Closing where
  shown : Text
  trace : Option (Text × Text)
  ending : Ending
deriving Repr, DecidableEq

/-- What is there when a session has ended: what it has shown, the file that it has saved, and how
it has ended. -/
structure Outcome where
  shown : Text
  saved : Option (Text × Text)
  ending : Ending
deriving Repr, DecidableEq

/-- What is shown when the trace is saved under a path. -/
def savedNote (path : Text) : Text := line ("\nTrace saved to: ".toList ++ path)

/-- Does what is left to do. -/
def Closing.carryOut (c : Closing) (folder : Folder) : Outcome :=
  match c.trace with
  | none => ⟨c.shown, none, c.ending⟩
  | some (path, trace) =>
    match folder.nameFor path with
    | .error fault => ⟨c.shown, none, .path path fault⟩
    | .ok name => ⟨c.shown ++ savedNote path, some (name, trace), c.ending⟩

namespace Session

/-- The run of the program, if these lines are typed in and nothing more. -/
def state (s : Session) (typed : List Text) : RunState :=
  let answers := (s.command.inputs ++ typed).toArray
  Machine.executeSource
    ⟨some fun i => .answer (answers.getD i []), none, s.draws, maxPasses⟩ s.source

/-- What is shown before the run. -/
def opening (s : Session) : Text :=
  if s.command.debug then
    let lines := Line.ofSource s.source
    line "Input code:".toList ++ line s.source ++
      part "Preprocessing..." (lines.map Line.listing) ++
      part "Parsing..." (kinds (Program.ofLines lines)) ++ part "Interpreting..." []
  else []

/-- The questions of a run that the command does not answer. -/
def questions (s : Session) (run : RunState) : List Text :=
  (run.prompts.toList.drop s.command.inputs.length).map (· ++ [' '])

/-- The results of a run. -/
def results (s : Session) (run : RunState) : Text :=
  let output := run.output.toList
  let errors := run.errors.toList
  if s.command.debug then
    part "Output:" output ++ (if errors.isEmpty then [] else part "Errors:" errors) ++
      part "Trace (CSV format):" [] ++ line (Csv.ofTrace run.trace)
  else linesBehind [] (output ++ errors)

/-- A variable as it is listed at the end. -/
def listing (v : Variable) : Except Fault Text := do
  return v.name ++ " (".toList ++ v.type.word ++ ") = ".toList ++ (← v.describe)

/-- The list of the variables, up to the first that cannot be shown, and its fault. -/
def listings : List Variable → List Text × Option Fault
  | [] => ([], none)
  | v :: rest =>
    match listing v with
    | .error fault => ([], some fault)
    | .ok t =>
      let (ts, fault) := listings rest
      (t :: ts, fault)

/-- What there is left to do at the end of a run. -/
def closing (s : Session) (run : RunState) : Closing :=
  let (listed, fault) := if s.command.vars then listings run.store.entries else ([], none)
  let shown := s.results run ++ if s.command.vars then part "Variables:" listed else []
  match fault with
  | some fault => ⟨shown, none, .fault fault⟩
  | none =>
    let ending := .status (if run.errors.isEmpty then 0 else 1)
    if s.command.debug then
      ⟨shown, some (traceFile s.command.file, Csv.ofTrace run.trace), ending⟩
    else ⟨shown, none, ending⟩

/-- The whole session, if these lines are typed in and nothing more. -/
def outcome (s : Session) (folder : Folder) (typed : List Text) : Outcome :=
  let run := s.state typed
  let o := (s.closing run).carryOut folder
  { o with shown := s.opening ++ (s.questions run).flatten ++ o.shown }

end Session

/-- What a command comes to if its file cannot be read. -/
def unread (file : Text) : PathFault → Outcome
  | .missing => ⟨line ("Error: File '".toList ++ file ++ "' not found".toList), none, .status 1⟩
  | fault => ⟨[], none, .path file fault⟩

/-- What a command comes to in a folder, if these lines are typed in. -/
def Command.outcome (c : Command) (draws : Nat → Nat) (folder : Folder) (typed : List Text) :
    Outcome :=
  match folder.read c.file with
  | .error fault => unread c.file fault
  | .ok bytes =>
    match sourceOf bytes with
    | .error m => ⟨[], none, .malformed m⟩
    | .ok source => Session.outcome ⟨c, source, draws⟩ folder typed

/-- The explanation of the arguments. -/
def usage : String :=
  "usage: pseint [-h] [--input VALUE] [--debug] [--vars] filename\n"

/-- The status of a command with senseless arguments. -/
def refusedStatus : Nat := 2

end Pseudocode.CommandLine
