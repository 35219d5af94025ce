import Pseudocode.Fault

/-!
# Traces

What a run did, as the nodes of a flowchart: one for each statement that was carried out, between a
start and an end. Nodes are numbered from zero, and each links to the nodes that follow it.
-/

namespace Pseudocode

/-- The kinds of nodes. -/
inductive NodeKind where
  | start | finish | process | decision | input | output
deriving Repr, DecidableEq

namespace NodeKind

/-- The word for a kind. -/
def word : NodeKind → Text
  | start => "start".toList
  | finish => "end".toList
  | process => "process".toList
  | decision => "decision".toList
  | input => "input".toList
  | output => "output".toList

/-- All kinds. -/
def all : List NodeKind := [start, finish, process, decision, input, output]

/-- The kind that a word stands for. -/
def ofWord (word : Text) : Except Fault NodeKind :=
  match all.find? (·.word == word) with
  | some kind => .ok kind
  | none => .error (.unknownNodeKind word)

end NodeKind

/-- A node: its number, its kind, the text in it, and the numbers of the nodes it links to. -/
structure TraceNode where
  number : Nat
  kind : NodeKind
  label : Text
  children : List Nat
deriving Repr, DecidableEq

namespace TraceNode

/-- The name of the node with a number. -/
def nameOf (number : Nat) : Text := "node_".toList ++ Text.ofNat number

/-- The name of a node. -/
def name (n : TraceNode) : Text := nameOf n.number

/-- Links a node to another one, unless it already is. -/
def link (n : TraceNode) (child : Nat) : TraceNode :=
  if n.children.contains child then n else { n with children := n.children ++ [child] }

/-- A node as messages show it. -/
def literal (n : TraceNode) : Text :=
  let children := n.children.map fun c => (nameOf c).quoted
  "TraceNode(".toList ++
    Text.join ", ".toList [n.name.quoted, n.kind.word.quoted, n.label.quoted,
      "children=[".toList ++ Text.join ", ".toList children ++ [']']] ++ [')']

end TraceNode

/-- A trace: its nodes, in the order in which they were added. -/
structure Trace where
  nodes : Array TraceNode
deriving Repr, DecidableEq

namespace Trace

/-- The trace without nodes. -/
def empty : Trace := ⟨#[]⟩

/-- Adds a node with the next number. -/
def add (t : Trace) (kind : NodeKind) (label : Text) : Trace :=
  ⟨t.nodes.push ⟨t.nodes.size, kind, label, []⟩⟩

/-- Links the node with one number to the node with another. -/
def link (t : Trace) (parent child : Nat) : Trace :=
  ⟨t.nodes.modify parent (·.link child)⟩

/-- Links every node to the one added after it. -/
def stitch (t : Trace) : Trace :=
  ⟨t.nodes.map fun n => if n.number + 1 < t.nodes.size then n.link (n.number + 1) else n⟩

/-- The kinds of the nodes. -/
def kinds (t : Trace) : List NodeKind := t.nodes.toList.map (·.kind)

end Trace

end Pseudocode
