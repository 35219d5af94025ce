import Mathlib.Data.List.Forall2
import Pseudocode.Proofs.Text.Split
import Pseudocode.Proofs.Token.Written
import Pseudocode.Trace.Csv

/-!
# Reading a trace back from its table

A reader of comma-separated values, as it is commonly laid down, goes through the text once
(`Csv.read`). A field ends at a comma, and a row at a carriage return with a line feed behind it,
both outside of quotes. A field that starts with a double quote reaches to the next one that is not
doubled, and everything between them belongs to it. Texts that do not keep to these rules are
refused.

**The reader finds in the table of a trace what was put into it** (`Csv.read_ofTrace_built`):
the head row, and a row for each node, in order, with its name, its kind, its label and, cut at
semicolons, the names of the nodes it links to. Labels may hold commas, quotes, line breaks and
semicolons. What a field, a row and a list of rows do to the state of the reader is proved one after
the other, each from the one before.

The trace can be any that is made by adding nodes, linking them and stitching (`Trace.built`).
-/

namespace Pseudocode

namespace Csv

open Text (doubleQuote)

/-! ### A reader of tables -/

/-- Where in a table a reader is. -/
inductive Place where
  /-- At the start of a field. -/
  | start
  /-- In a field without quotes. -/
  | plain
  /-- In a field with quotes. -/
  | quoted
  /-- Behind a double quote in a field with quotes: the field ends, or the quote is the first of
  two. -/
  | closing
  /-- Behind a carriage return outside of quotes. -/
  | breaking
deriving Repr, DecidableEq

/-- The state of a reader: the rows that are complete, the complete fields of the row it is in, what
it has read of the field it is in, and its place. -/
structure Reader where
  rows : List (List Text)
  fields : List Text
  field : Text
  place : Place
deriving Repr, DecidableEq

namespace Reader

/-- A reader that has read nothing. -/
def initial : Reader := ⟨[], [], [], .start⟩

/-- Takes a character into the field. -/
def push (r : Reader) (c : Char) (place : Place) : Reader :=
  { r with field := r.field ++ [c], place }

/-- Ends the field. -/
def endField (r : Reader) : Reader :=
  { r with fields := r.fields ++ [r.field], field := [], place := .start }

/-- Ends the row. -/
def endRow (r : Reader) : Reader := ⟨r.rows ++ [r.fields ++ [r.field]], [], [], .start⟩

/-- Reads what must be the end of a field. -/
def delimit (r : Reader) (c : Char) : Option Reader :=
  if c = ',' then some r.endField
  else if c = '\r' then some { r with place := .breaking }
  else none

/-- Reads a character of a field without quotes. -/
def unquoted (r : Reader) (c : Char) : Option Reader :=
  if c = ',' ∨ c = '\r' ∨ c = '\n' ∨ c = doubleQuote then r.delimit c else some (r.push c .plain)

/-- Reads a character. -/
def step (r : Reader) (c : Char) : Option Reader :=
  match r.place with
  | .start => if c = doubleQuote then some { r with place := .quoted } else r.unquoted c
  | .plain => r.unquoted c
  | .quoted =>
    if c = doubleQuote then some { r with place := .closing } else some (r.push c .quoted)
  | .closing => if c = doubleQuote then some (r.push c .quoted) else r.delimit c
  | .breaking => if c = '\n' then some r.endRow else none

/-- The rows that were read when the text is over. The last row needs no line break. -/
def finish (r : Reader) : Option (List (List Text)) :=
  match r.place with
  | .start => some (if r.fields = [] then r.rows else r.endRow.rows)
  | .plain | .closing => some r.endRow.rows
  | .quoted | .breaking => none

end Reader

/-- The rows of a table, each with its fields; nothing if the text is no table. -/
def read (t : Text) : Option (List (List Text)) :=
  (t.foldlM Reader.step .initial).bind Reader.finish

/-! ### Fields and rows -/

section Reading

variable {r r' : Reader} {rows : List (List Text)} {fields : List Text} {t u : Text} {place : Place}

private theorem foldlM_step_cons {c : Char} (h : r.step c = some r') (t : Text) :
    (c :: t).foldlM Reader.step r = t.foldlM Reader.step r' := by
  rw [List.foldlM_cons, h]
  rfl

private theorem foldlM_step_append (h : t.foldlM Reader.step r = some r') (u : Text) :
    (t ++ u).foldlM Reader.step r = u.foldlM Reader.step r' := by
  rw [List.foldlM_append, h]
  rfl

/-- The field that the reader is in may end. -/
def Place.MayEnd (place : Place) : Prop := place = .start ∨ place = .plain ∨ place = .closing

private theorem Place.MayEnd.step_comma (h : place.MayEnd) :
    Reader.step ⟨rows, fields, t, place⟩ ',' = some ⟨rows, fields ++ [t], [], .start⟩ := by
  rcases h with rfl | rfl | rfl <;> rfl

private theorem Place.MayEnd.step_return (h : place.MayEnd) :
    Reader.step ⟨rows, fields, t, place⟩ '\r' = some ⟨rows, fields, t, .breaking⟩ := by
  rcases h with rfl | rfl | rfl <;> rfl

/-- Characters that need no quotes are taken into a field without quotes. -/
private theorem foldlM_step_plain (hplace : place = .start ∨ place = .plain)
    (ht : ∀ c ∈ t, needsQuotes c = false) : ∃ place' : Place, place'.MayEnd ∧
      t.foldlM Reader.step ⟨rows, fields, u, place⟩ = some ⟨rows, fields, u ++ t, place'⟩ := by
  induction t generalizing u place with
  | nil =>
    refine ⟨place, ?_, by rw [List.append_nil]; rfl⟩
    rcases hplace with rfl | rfl
    · exact .inl rfl
    · exact .inr (.inl rfl)
  | cons c t ih =>
    obtain ⟨hc, ht⟩ := List.forall_mem_cons.mp ht
    simp only [needsQuotes, Bool.or_eq_false_iff, beq_eq_false_iff_ne, ne_eq] at hc
    obtain ⟨⟨⟨hcomma, hquote⟩, hreturn⟩, hfeed⟩ := hc
    have hstep : Reader.step ⟨rows, fields, u, place⟩ c =
        some ⟨rows, fields, u ++ [c], .plain⟩ := by
      rcases hplace with rfl | rfl <;>
        simp [Reader.step, Reader.unquoted, Reader.push, hcomma, hquote, hreturn, hfeed]
    obtain ⟨place', hend, hread⟩ := ih (u := u ++ [c]) (.inr rfl) ht
    refine ⟨place', hend, ?_⟩
    rw [foldlM_step_cons hstep, hread, List.append_assoc]
    rfl

/-- Between quotes, everything is taken into the field, and of two double quotes one. -/
private theorem foldlM_step_quoted (t u : Text) :
    (t.flatMap fun c => if c = doubleQuote then [c, c] else [c]).foldlM Reader.step
        ⟨rows, fields, u, .quoted⟩ = some ⟨rows, fields, u ++ t, .quoted⟩ := by
  induction t generalizing u with
  | nil => simp
  | cons c t ih =>
    have hread : (if c = doubleQuote then [c, c] else [c]).foldlM Reader.step
        ⟨rows, fields, u, .quoted⟩ = some ⟨rows, fields, u ++ [c], .quoted⟩ := by
      split
      · next hc => subst hc; rfl
      · next hc => simp [Reader.step, Reader.push, hc]
    rw [List.flatMap_cons, foldlM_step_append hread, ih, List.append_assoc]
    rfl

/-- **What a field does**: its text is read, and it may end. -/
theorem foldlM_step_field (rows : List (List Text)) (fields : List Text) (t : Text) :
    ∃ place : Place, place.MayEnd ∧
      (field t).foldlM Reader.step ⟨rows, fields, [], .start⟩ =
        some ⟨rows, fields, t, place⟩ := by
  rw [field]
  split
  · -- in quotes: the reader cannot tell yet that the last one is not the first of two
    refine ⟨.closing, .inr (.inr rfl), ?_⟩
    have hopen : Reader.step ⟨rows, fields, [], .start⟩ doubleQuote =
        some ⟨rows, fields, [], .quoted⟩ := rfl
    rw [List.cons_append, foldlM_step_cons hopen, foldlM_step_append (foldlM_step_quoted t [])]
    rfl
  · next hplain =>
    have hneeds : ∀ c ∈ t, needsQuotes c = false := by simpa using hplain
    exact foldlM_step_plain (.inl rfl) hneeds

/-- **What a row does**: its fields are added to those before them, and the row is complete. -/
theorem foldlM_step_row (fields : List Text) (t : Text) (ts : List Text) :
    (row (t :: ts)).foldlM Reader.step ⟨rows, fields, [], .start⟩ =
      some ⟨rows ++ [fields ++ t :: ts], [], [], .start⟩ := by
  induction ts generalizing fields t with
  | nil =>
    obtain ⟨place, hend, hread⟩ := foldlM_step_field rows fields t
    rw [row, List.map_singleton, Text.join_singleton, foldlM_step_append hread,
      foldlM_step_cons hend.step_return]
    rfl
  | cons u ts ih =>
    obtain ⟨place, hend, hread⟩ := foldlM_step_field rows fields t
    have hrow : row (t :: u :: ts) = field t ++ ',' :: row (u :: ts) := by
      simp [row]
    rw [hrow, foldlM_step_append hread, foldlM_step_cons hend.step_comma, ih, List.append_assoc]
    rfl

/-- **Rows are read as they were written**, if each has a field. -/
theorem foldlM_step_rows (before rows : List (List Text)) (hrows : ∀ ts ∈ rows, ts ≠ []) :
    (rows.flatMap row).foldlM Reader.step ⟨before, [], [], .start⟩ =
      some ⟨before ++ rows, [], [], .start⟩ := by
  induction rows generalizing before with
  | nil => simp
  | cons ts rows ih =>
    obtain ⟨hne, hmore⟩ := List.forall_mem_cons.mp hrows
    obtain ⟨t, ts, rfl⟩ := List.exists_cons_of_ne_nil hne
    rw [List.flatMap_cons, foldlM_step_append (foldlM_step_row [] t ts), ih _ hmore,
      List.append_assoc]
    rfl

end Reading

private theorem read_flatMap_row (rows : List (List Text)) (hrows : ∀ ts ∈ rows, ts ≠ []) :
    read (rows.flatMap row) = some rows := by
  rw [read, Reader.initial, foldlM_step_rows [] rows hrows]
  rfl

example : read "a,\"b\"\",\r\n\"\r\n,\r\n".toList =
    some [["a".toList, "b\",\r\n".toList], [[], []]] := by
  decide

/-! ### The rows of a trace -/

/-- The names in the last field of a row: those between semicolons, and none if the field is
empty. -/
def childNames (t : Text) : List Text := if t = [] then [] else t.splitAt ';'

private theorem semicolon_not_mem_nameOf (n : Nat) : ';' ∉ TraceNode.nameOf n := by
  intro h
  rcases List.mem_append.mp h with h | h
  · exact absurd h (by decide)
  · exact absurd (Text.isDigit_of_mem_ofNat h) (by decide)

private theorem childNames_join (numbers : List Nat) :
    childNames (Text.join [';'] (numbers.map TraceNode.nameOf)) =
      numbers.map TraceNode.nameOf := by
  cases numbers with
  | nil => rfl
  | cons n numbers =>
    have hnames : ∀ u ∈ numbers.map TraceNode.nameOf, ';' ∉ u := by
      intro u hu
      obtain ⟨m, -, rfl⟩ := List.mem_map.mp hu
      exact semicolon_not_mem_nameOf m
    have hsplit := Text.splitAt_join List.not_mem_nil (semicolon_not_mem_nameOf n) hnames
    have hname : TraceNode.nameOf n ≠ [] := List.append_ne_nil_of_left_ne_nil (by decide) _
    rw [List.map_cons, childNames, if_neg, hsplit]
    · simp
    · -- an empty field would be cut into one empty name
      intro hnil
      rw [hnil] at hsplit
      exact hname (List.cons.inj hsplit).1.symm

/-- A row tells of a node: its name, its kind, its label, and the names of the nodes it links to. -/
def Tells (n : TraceNode) (row : List Text) : Prop :=
  ∃ last, row = [n.name, n.kind.word, n.label, last] ∧
    childNames last = n.children.map TraceNode.nameOf

private theorem tells_nodeFields (n : TraceNode) : Tells n (nodeFields n) :=
  ⟨_, rfl, childNames_join n.children⟩

private theorem read_ofTrace (t : Trace) :
    read (ofTrace t) = some (headFields :: t.nodes.toList.map nodeFields) := by
  have htable : ofTrace t = (headFields :: t.nodes.toList.map nodeFields).flatMap row := by
    rw [ofTrace, List.flatMap_cons, List.flatMap_map]
  rw [htable, read_flatMap_row]
  refine List.forall_mem_cons.mpr ⟨by decide, fun ts hts => ?_⟩
  obtain ⟨n, -, rfl⟩ := List.mem_map.mp hts
  exact List.cons_ne_nil _ _

end Csv

/-! ### Making a trace -/

namespace TraceNode

variable (n : TraceNode) (child : Nat)

@[simp] theorem link_number : (n.link child).number = n.number := by
  unfold link
  split <;> rfl

@[simp] theorem link_kind : (n.link child).kind = n.kind := by
  unfold link
  split <;> rfl

@[simp] theorem link_label : (n.link child).label = n.label := by
  unfold link
  split <;> rfl

end TraceNode

namespace Trace

/-- A call to a trace. The kind of a node to be added is given by its word, and nodes to be linked
by their numbers. -/
inductive Call where
  | add (word label : Text)
  | link (parent child : Nat)
  | stitch
deriving Repr, DecidableEq

/-- What a call adds to a trace: the word and the label of a node, if the word is one for a kind. -/
def Call.added? : Call → Option (Text × Text)
  | add word label => if NodeKind.all.any (·.word == word) then some (word, label) else none
  | link _ _ | stitch => none

/-- A trace after a call. A node of an unknown kind is refused, and the trace stays as it was. -/
def call (t : Trace) : Call → Trace
  | .add word label =>
    match NodeKind.ofWord word with
    | .ok kind => t.add kind label
    | .error _ => t
  | .link parent child => t.link parent child
  | .stitch => t.stitch

/-- The trace that calls make. -/
def built (calls : List Call) : Trace := calls.foldl call empty

/-- Each node is numbered by its position. -/
def InPlace (t : Trace) : Prop :=
  ∀ (i : Nat) (n : TraceNode), t.nodes[i]? = some n → n.number = i

/-- The words for the kinds of the nodes, and their labels. -/
def contents (t : Trace) : List (Text × Text) :=
  t.nodes.toList.map fun n => (n.kind.word, n.label)

variable {t : Trace}

private theorem ofWord_cases (word : Text) :
    (∃ kind, NodeKind.ofWord word = .ok kind ∧ kind.word = word ∧
      NodeKind.all.any (·.word == word) = true) ∨
    (∃ fault, NodeKind.ofWord word = .error fault) ∧
      NodeKind.all.any (·.word == word) = false := by
  rw [NodeKind.ofWord]
  cases hfind : NodeKind.all.find? (·.word == word) with
  | some kind =>
    have hword := List.find?_some hfind
    exact .inl ⟨kind, rfl, eq_of_beq hword,
      List.any_eq_true.mpr ⟨kind, List.mem_of_find?_eq_some hfind, hword⟩⟩
  | none =>
    refine .inr ⟨⟨_, rfl⟩, List.any_eq_false.mpr fun kind hkind => ?_⟩
    exact List.find?_eq_none.mp hfind kind hkind

/-- What one call keeps: the numbers of the nodes are their positions. -/
private theorem InPlace.call (h : t.InPlace) (c : Call) : (t.call c).InPlace := by
  intro i n hi
  cases c with
  | add word label =>
    rcases ofWord_cases word with ⟨kind, hkind, -⟩ | ⟨⟨fault, hfault⟩, -⟩
    · rw [Trace.call, hkind] at hi
      simp only [add, Array.getElem?_push] at hi
      split at hi
      · next hsize =>
        obtain rfl := Option.some.inj hi
        exact hsize.symm
      · exact h i n hi
    · rw [Trace.call, hfault] at hi
      exact h i n hi
  | link parent child =>
    rw [Trace.call, Trace.link, Array.getElem?_modify] at hi
    split at hi
    · obtain ⟨m, hm, rfl⟩ := Option.map_eq_some_iff.mp hi
      rw [TraceNode.link_number]
      exact h i m hm
    · exact h i n hi
  | stitch =>
    rw [Trace.call, Trace.stitch, Array.getElem?_map] at hi
    obtain ⟨m, hm, rfl⟩ := Option.map_eq_some_iff.mp hi
    have hnumber := h i m hm
    split
    · rw [TraceNode.link_number, hnumber]
    · exact hnumber

/-- What one call adds: a node, if it asks for one of a known kind, and links add nothing. -/
private theorem contents_call (t : Trace) (c : Call) :
    (t.call c).contents = t.contents ++ c.added?.toList := by
  cases c with
  | add word label =>
    rcases ofWord_cases word with ⟨kind, hkind, hword, hknown⟩ | ⟨⟨fault, hfault⟩, hunknown⟩
    · simp [call, hkind, Call.added?, hknown, contents, add, hword]
    · simp [call, hfault, Call.added?, hunknown]
  | link parent child =>
    rw [call, Call.added?, Option.toList_none, List.append_nil, contents, contents]
    refine List.ext_getElem? fun i => ?_
    simp only [link, List.getElem?_map, Array.getElem?_toList, Array.getElem?_modify]
    split
    · cases t.nodes[i]? <;> simp
    · rfl
  | stitch =>
    rw [call, Call.added?, Option.toList_none, List.append_nil, contents, contents, stitch,
      Array.toList_map, List.map_map]
    refine List.map_congr_left fun n _ => ?_
    simp only [Function.comp_apply]
    split <;> simp

/-- After any calls, the nodes are numbered by their positions. -/
private theorem inPlace_built (calls : List Call) : (built calls).InPlace := by
  induction calls using List.reverseRecOn with
  | nil =>
    intro i n hi
    simp [built, empty] at hi
  | append_singleton calls c ih =>
    rw [built, List.foldl_append]
    exact ih.call c

/-- After any calls, the nodes are those that were asked for, in order. -/
private theorem contents_built (calls : List Call) :
    (built calls).contents = calls.filterMap Call.added? := by
  induction calls using List.reverseRecOn with
  | nil => rfl
  | append_singleton calls c ih =>
    rw [built, List.foldl_append, List.filterMap_append, ← ih]
    exact contents_call _ c

end Trace

/-- **A trace is read back from its table.** Make a trace by any calls, with any labels. A reader of
tables finds in its table the head row and then, for each node in order, a row with its name, its
kind, its label and the names of the nodes it links to. The nodes are those that were asked for, in
order, and they are named by their positions. -/
theorem Csv.read_ofTrace_built (calls : List Trace.Call) :
    ∃ rows, Csv.read (Csv.ofTrace (Trace.built calls)) =
        some (["id".toList, "kind".toList, "label".toList, "children".toList] :: rows) ∧
      List.Forall₂ Csv.Tells (Trace.built calls).nodes.toList rows ∧
      (Trace.built calls).nodes.toList.map (fun n => (n.kind.word, n.label)) =
        calls.filterMap Trace.Call.added? ∧
      ∀ i n, (Trace.built calls).nodes[i]? = some n → n.name = TraceNode.nameOf i := by
  refine ⟨_, Csv.read_ofTrace _, ?_, Trace.contents_built calls, fun i n hi => ?_⟩
  · rw [List.forall₂_map_right_iff, List.forall₂_same]
    exact fun n _ => Csv.tells_nodeFields n
  · exact congrArg TraceNode.nameOf (Trace.inPlace_built calls i n hi)

end Pseudocode
