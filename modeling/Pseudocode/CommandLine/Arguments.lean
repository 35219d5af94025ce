import Pseudocode.Text.Digit

/-!
# Arguments

A command names the file with the program. Switches may stand around it: a long one may be cut
short as long as it stays unambiguous, and takes its value from behind an equals sign or from the
next argument. Behind a lone double hyphen nothing is a switch any more.
-/

namespace Pseudocode.CommandLine

/-- A switch. -/
inductive Switch where
  /-- Explains the arguments. -/
  | help
  /-- Gives an answer to the program. -/
  | input
  /-- Shows every stage and saves the trace. -/
  | debug
  /-- Lists the variables at the end. -/
  | vars
deriving Repr, DecidableEq

/-- The switches by their long names. -/
def Switch.known : List (String × Switch) :=
  [("--help", help), ("--input", input), ("--debug", debug), ("--vars", vars)]

/-- The switches whose long names start with a text. -/
def Switch.startingWith (t : Text) : List Switch :=
  (known.filter fun (name, _) => t.isPrefixOf name.toList).map (·.2)

/-- An argument by itself. -/
inductive Argument where
  /-- The end of the switches. -/
  | separator
  /-- No switch. -/
  | plain (t : Text)
  /-- A switch by its long name, with the value behind its equals sign. -/
  | long (s : Switch) (value : Option Text)
  /-- The short switch that asks for help, with the letters behind it or behind its equals sign. -/
  | short (letters : Option Text)
  /-- It looks like a switch and is none. -/
  | unknown
deriving Repr, DecidableEq

namespace Argument

/-- Whether a text is one or more digits. -/
def isDigits (t : Text) : Bool := !t.isEmpty && t.all Text.isDecimal

/-- Whether the text behind a hyphen makes it a negative number; a line feed at the end is
overlooked. -/
def isNegated (t : Text) : Bool :=
  let body := if t.getLast? = some '\n' then t.dropLast else t
  isDigits body ||
    match body.dropWhile Text.isDecimal with
    | '.' :: fraction => isDigits fraction
    | _ => false

/-- A text that starts with a hyphen and is no switch. -/
def other (t : Text) : Argument :=
  if isNegated (t.drop 1) || t.contains ' ' then plain t else unknown

/-- The value behind an equals sign. -/
def valueOf (t : Text) : Option Text :=
  match t.dropWhile (· != '=') with
  | _ :: value => some value
  | [] => none

/-- What an argument is by itself; nothing if it may be one of several switches. -/
def read (t : Text) : Option Argument :=
  match t with
  | '-' :: '-' :: _ =>
    match Switch.startingWith (t.takeWhile (· != '=')) with
    | [] => some (other t)
    | [s] => some (long s (valueOf t))
    | _ => none
  | ['-', 'h'] => some (short none)
  | '-' :: 'h' :: '=' :: letters => some (short (some letters))
  | '-' :: 'h' :: letters => some (short (some letters))
  | '-' :: _ :: _ => some (other t)
  | _ => some (plain t)

/-- What the arguments are, each by itself. -/
def readAll : List Text → Option (List Argument)
  | [] => some []
  | t :: rest =>
    if t = ['-', '-'] then some (separator :: rest.map plain)
    else do return (← read t) :: (← readAll rest)

end Argument

/-- What to run, and how. -/
structure Command where
  /-- The file with the program. -/
  file : Text
  /-- Answers to the program, before those that are typed in. -/
  inputs : List Text
  /-- Whether to show every stage and to save the trace. -/
  debug : Bool
  /-- Whether to list the variables at the end. -/
  vars : Bool
deriving Repr, DecidableEq

/-- What the arguments ask for. -/
inductive Request where
  /-- An explanation of the arguments. -/
  | help
  /-- Nothing that makes sense. -/
  | refused
  /-- A program is to be run. -/
  | run (command : Command)
deriving Repr, DecidableEq

/-- What is known of a command when some of its arguments are read. -/
structure Draft where
  file : Option Text
  inputs : List Text
  debug : Bool
  vars : Bool
  /-- Whether there was an argument with no place in the command. -/
  surplus : Bool

namespace Draft

/-- Nothing is known. -/
def empty : Draft := ⟨none, [], false, false, false⟩

/-- What is asked for when all arguments are read. -/
def finish (d : Draft) : Request :=
  match d.file with
  | some file => if d.surplus then .refused else .run ⟨file, d.inputs, d.debug, d.vars⟩
  | none => .refused

/-- The answer that a value behind an equals sign gives. A separator is taken out there as well, and
what is left of the value is then an empty list. -/
def attached (value : Text) : Text :=
  if value = ['-', '-'] then ['[', ']'] else value

/-- Reads on. A switch that is given a value it does not take, or not given the one it takes, ends
the reading, and so does asking for help; arguments with no place are refused only at the end. -/
def complete (d : Draft) : List Argument → Request
  | [] => d.finish
  | .plain t :: .separator :: rest =>
    match d.file with
    | none => complete { d with file := some t } rest
    | some _ => complete { d with surplus := true } rest
  | .plain t :: rest =>
    match d.file with
    | none => complete { d with file := some t } rest
    | some _ => complete { d with surplus := true } rest
  | .separator :: rest => complete { d with surplus := d.surplus || d.file.isSome } rest
  | .unknown :: rest => complete { d with surplus := true } rest
  | .long .help none :: _ => .help
  | .short none :: _ => .help
  | .short (some letters) :: _ =>
    if !letters.isEmpty && letters.all (· == 'h') then .help else .refused
  | .long .input (some value) :: rest =>
    complete { d with inputs := d.inputs ++ [attached value] } rest
  | .long .input none :: .plain value :: rest =>
    complete { d with inputs := d.inputs ++ [value] } rest
  | .long .debug none :: rest => complete { d with debug := true } rest
  | .long .vars none :: rest => complete { d with vars := true } rest
  | .long _ _ :: _ => .refused

end Draft

/-- What the arguments of a command line ask for. -/
def Request.ofArguments (arguments : List Text) : Request :=
  match Argument.readAll arguments with
  | some read => Draft.empty.complete read
  | none => .refused

end Pseudocode.CommandLine
