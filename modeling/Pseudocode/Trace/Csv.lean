import Pseudocode.Trace.Basic

/-!
# Traces as tables

A trace as comma-separated values: a head row, then a row for each node with its name, kind, label
and the names of the nodes it links to. A field with a comma, a double quote or a line break stands
in double quotes, and double quotes in it are doubled. Rows end in a carriage return and a line
feed.
-/

namespace Pseudocode.Csv

/-- Whether a character makes a field stand in quotes. -/
def needsQuotes (c : Char) : Bool :=
  c == ',' || c == Text.doubleQuote || c == '\r' || c == '\n'

/-- A field of a table. -/
def field (t : Text) : Text :=
  if t.any needsQuotes then
    Text.doubleQuote ::
      t.flatMap (fun c => if c = Text.doubleQuote then [c, c] else [c]) ++ [Text.doubleQuote]
  else t

/-- A row of a table. -/
def row (fields : List Text) : Text :=
  Text.join [','] (fields.map field) ++ ['\r', '\n']

/-- The fields of the head row of a trace. -/
def headFields : List Text :=
  ["id".toList, "kind".toList, "label".toList, "children".toList]

/-- The fields of the row of a node. -/
def nodeFields (n : TraceNode) : List Text :=
  [n.name, n.kind.word, n.label, Text.join [';'] (n.children.map TraceNode.nameOf)]

/-- A trace as a table. -/
def ofTrace (t : Trace) : Text :=
  row headFields ++ t.nodes.toList.flatMap fun n => row (nodeFields n)

end Pseudocode.Csv
