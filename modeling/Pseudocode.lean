import Pseudocode.Arithmetic
import Pseudocode.Binary64.Basic
import Pseudocode.Block.Branches
import Pseudocode.Block.Cases
import Pseudocode.Block.Family
import Pseudocode.CommandLine.Arguments
import Pseudocode.CommandLine.Folder
import Pseudocode.CommandLine.Session
import Pseudocode.Decimal.Layout
import Pseudocode.Decimal.Reader
import Pseudocode.Decimal.Shortest
import Pseudocode.Draws
import Pseudocode.Expr.Basic
import Pseudocode.Expr.Builtin
import Pseudocode.Expr.Eval
import Pseudocode.Expr.Operation
import Pseudocode.Expr.Parser
import Pseudocode.Expr.Parts
import Pseudocode.Fault
import Pseudocode.Line
import Pseudocode.Main
import Pseudocode.Number
import Pseudocode.Numeral
import Pseudocode.Pattern
import Pseudocode.Program
import Pseudocode.Proofs.Binary64.Addition
import Pseudocode.Proofs.Binary64.Exact
import Pseudocode.Proofs.Binary64.Nearest
import Pseudocode.Proofs.Binary64.Range
import Pseudocode.Proofs.Binary64.Rounding
import Pseudocode.Proofs.Block.Bodies
import Pseudocode.Proofs.Block.Groups
import Pseudocode.Proofs.Block.HandOver
import Pseudocode.Proofs.Block.Labels
import Pseudocode.Proofs.Block.Levels
import Pseudocode.Proofs.Block.Matching
import Pseudocode.Proofs.Block.Openers
import Pseudocode.Proofs.Block.Roles
import Pseudocode.Proofs.Expr.Calls
import Pseudocode.Proofs.Expr.Conditions
import Pseudocode.Proofs.Expr.Cutting
import Pseudocode.Proofs.Expr.Dependence
import Pseudocode.Proofs.Expr.Grammar
import Pseudocode.Proofs.Expr.Integers
import Pseudocode.Proofs.Expr.Parts
import Pseudocode.Proofs.Expr.Plain
import Pseudocode.Proofs.Expr.Printer
import Pseudocode.Proofs.Expr.Recognition
import Pseudocode.Proofs.Expr.RoundTrip
import Pseudocode.Proofs.Expr.Shown
import Pseudocode.Proofs.Expr.Straying
import Pseudocode.Proofs.Expr.StringLists
import Pseudocode.Proofs.Expr.Walk
import Pseudocode.Proofs.Line.Layout
import Pseudocode.Proofs.Line.Literals
import Pseudocode.Proofs.Numeral.Grammar
import Pseudocode.Proofs.Numeral.Leading
import Pseudocode.Proofs.Numeral.Readers
import Pseudocode.Proofs.Pattern.Ways
import Pseudocode.Proofs.Run.Assignment
import Pseudocode.Proofs.Run.Branching
import Pseudocode.Proofs.Run.Counting
import Pseudocode.Proofs.Run.Effects
import Pseudocode.Proofs.Run.Inputs
import Pseudocode.Proofs.Run.Names
import Pseudocode.Proofs.Run.Observer
import Pseudocode.Proofs.Run.Output
import Pseudocode.Proofs.Run.Parts
import Pseudocode.Proofs.Run.Reading
import Pseudocode.Proofs.Run.Record
import Pseudocode.Proofs.Run.Turns
import Pseudocode.Proofs.Statement.Brackets
import Pseudocode.Proofs.Statement.WrittenHeaders
import Pseudocode.Proofs.Store.Elements
import Pseudocode.Proofs.Store.History
import Pseudocode.Proofs.Text.Keyword
import Pseudocode.Proofs.Text.Literals
import Pseudocode.Proofs.Text.Lower
import Pseudocode.Proofs.Text.Split
import Pseudocode.Proofs.Text.Trim
import Pseudocode.Proofs.Token.Lexed
import Pseudocode.Proofs.Token.Lossless
import Pseudocode.Proofs.Token.Written
import Pseudocode.Proofs.Trace.Table
import Pseudocode.Proofs.Tree.Basic
import Pseudocode.Proofs.Tree.Frames
import Pseudocode.Proofs.Tree.Headers
import Pseudocode.Proofs.Tree.Layout
import Pseudocode.Proofs.Tree.Reading
import Pseudocode.Proofs.Tree.Simulation
import Pseudocode.Proofs.Tree.Steps
import Pseudocode.Run.Frame
import Pseudocode.Run.Machine
import Pseudocode.Run.State
import Pseudocode.Run.Statement
import Pseudocode.Sample
import Pseudocode.Statement.Basic
import Pseudocode.Statement.Parser
import Pseudocode.Statement.Shape
import Pseudocode.Store.Basic
import Pseudocode.Store.Variable
import Pseudocode.Text.Accent
import Pseudocode.Text.Basic
import Pseudocode.Text.Blank
import Pseudocode.Text.Case
import Pseudocode.Text.CaseTable
import Pseudocode.Text.Decomposition
import Pseudocode.Text.Digit
import Pseudocode.Text.Letter
import Pseudocode.Text.Mark
import Pseudocode.Text.Printable
import Pseudocode.Text.Quoted
import Pseudocode.Text.Ranges
import Pseudocode.Text.Trim
import Pseudocode.Text.Utf8
import Pseudocode.Text.Word
import Pseudocode.Token.Basic
import Pseudocode.Token.Lexer
import Pseudocode.Trace.Basic
import Pseudocode.Trace.Csv
import Pseudocode.Value.Basic
import Pseudocode.Value.Display
