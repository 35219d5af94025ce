import Pseudocode.Proofs.Tree.Reading

/-!
# The blocks of a structured program in its lines

The searches for the end of a block, the clauses of a conditional and the groups of a choice find
in the lines of a tree what the tree has there. All three are instances of `gather`, and one
induction on the tree shows how `gather` passes it: **a search passes a whole sequence as if it
were not there** (`Block.gather_lines`), whatever its family and however many blocks are open,
because each block in it closes what it opens. So at its own level a search meets only the lines of
its own block: the clauses of the chain (`Chain.gather_lines_zero`), or the marks of the groups
(`Groups.gather_lines_zero`).
-/

namespace Pseudocode.Structured

/-! ### Passing a tree -/

section Passing

variable {α : Type} {f : Family} {note : Nat → Line → Option α}

mutual

/-- A search passes over the lines of a whole block and notes nothing in it. -/
theorem Block.gather_lines (hnote : Heeds f note) (size nested i : Nat) (ls : List Line) :
    (b : Block Sole) →
    gather f note size nested i (b.lines ++ ls) =
      gather f note size nested (i + b.lines.length) ls
  | .nil => rfl
  | .cons item rest => by
    rw [Block.lines, List.append_assoc, item.gather_lines hnote, rest.gather_lines hnote,
      List.length_append, Nat.add_assoc]

/-- A search passes over the lines of a whole item and notes nothing in it. -/
private theorem Item.gather_lines (hnote : Heeds f note) (size nested i : Nat) (ls : List Line) :
    (t : Item Sole) →
    gather f note size nested i (t.lines ++ ls) =
      gather f note size nested (i + t.lines.length) ls
  | .simple line => gather_plain hnote line.2
  | .whileLoop number condition body close => by
    simp only [Item.lines, List.cons_append, List.append_assoc, List.nil_append, List.length_cons,
      List.length_append, List.length_nil]
    rw [gather_opens hnote (plays_while number condition), body.gather_lines hnote,
      gather_closes hnote close.2]
    congr 1
    omega
  | .forLoop number counter first last step body close => by
    simp only [Item.lines, List.cons_append, List.append_assoc, List.nil_append, List.length_cons,
      List.length_append, List.length_nil]
    rw [gather_opens hnote (plays_for number counter first last step), body.gather_lines hnote,
      gather_closes hnote close.2]
    congr 1
    omega
  | .conditional number condition body chain => by
    simp only [Item.lines, List.cons_append, List.append_assoc, List.length_cons,
      List.length_append]
    rw [gather_opens hnote (plays_conditional number condition), body.gather_lines hnote,
      chain.gather_lines hnote]
    congr 1
    omega
  | .choice number subject groups close => by
    simp only [Item.lines, List.cons_append, List.append_assoc, List.nil_append, List.length_cons,
      List.length_append, List.length_nil]
    rw [gather_opens hnote (plays_choice number subject), groups.gather_lines hnote,
      gather_closes hnote close.2]
    congr 1
    omega

/-- A chain closes the conditional that it belongs to. -/
private theorem Chain.gather_lines (hnote : Heeds f note) (size nested i : Nat) (ls : List Line) :
    (c : Chain Sole) →
    gather f note size (inside f .si nested) i (c.lines ++ ls) =
      gather f note size nested (i + c.lines.length) ls
  | .done close => gather_closes hnote close.2
  | .otherwise line body close => by
    simp only [Chain.lines, List.cons_append, List.append_assoc, List.nil_append, List.length_cons,
      List.length_append, List.length_nil]
    rw [gather_inner hnote line.2 rfl, body.gather_lines hnote, gather_closes hnote close.2]
    congr 1
    omega
  | .elseIf number condition body chain => by
    simp only [Chain.lines, List.cons_append, List.append_assoc, List.length_cons,
      List.length_append]
    rw [gather_inner hnote (plays_chained number condition) rfl, body.gather_lines hnote,
      chain.gather_lines hnote]
    congr 1
    omega

/-- A search that is inside a choice passes over its groups. -/
private theorem Groups.gather_lines (hnote : Heeds f note) (size nested i : Nat) (ls : List Line) :
    (g : Groups Sole) →
    gather f note size (inside f .segun nested) i (g.lines ++ ls) =
      gather f note size (inside f .segun nested) (i + g.lines.length) ls
  | .nil => rfl
  | .cons mark line body rest => by
    simp only [Groups.lines, List.cons_append, List.append_assoc, List.length_cons,
      List.length_append]
    rw [gather_inner hnote line.2 rfl, body.gather_lines hnote, rest.gather_lines hnote]
    congr 1
    omega

end

end Passing

/-! ### The end of a block -/

/-- The search for the end of a body ends at the line that closes it. -/
theorem blockEnd_eq {f : Family} {lines ls : List Line} {p : Nat} {body : Block Sole}
    {close : LineAs (.closes f)} (h : lines.drop p = body.lines ++ close.1 :: ls) :
    f.blockEnd lines p = p + body.lines.length := by
  rw [Family.blockEnd, h, closing_eq_gather, body.gather_lines (heeds_noNote f),
    gather_closes_zero close.2]

/-! ### The clauses of a conditional -/

variable {Marks : Line → Mark → Prop}

/-- The clauses of a chain that starts at a position. -/
def Chain.clauses : Chain Marks → Nat → List Clause
  | .done _, _ => []
  | .otherwise .., p => [⟨false, p⟩]
  | .elseIf _ _ body chain, p => ⟨true, p⟩ :: chain.clauses (p + 1 + body.lines.length)

/-- The position of the line that closes the conditional of a chain that starts at a position. -/
def Chain.closeAt : Chain Marks → Nat → Nat
  | .done _, p => p
  | .otherwise _ body _, p => p + 1 + body.lines.length
  | .elseIf _ _ body chain, p => chain.closeAt (p + 1 + body.lines.length)

/-- A chain ends with the line that closes its conditional. -/
theorem Chain.closeAt_add_one (p : Nat) : (c : Chain Marks) →
    c.closeAt p + 1 = p + c.lines.length
  | .done _ => rfl
  | .otherwise _ body _ => by
    simp only [Chain.closeAt, Chain.lines, List.length_cons, List.length_append, List.length_nil]
    omega
  | .elseIf _ _ body chain => by
    rw [Chain.closeAt, chain.closeAt_add_one]
    simp only [Chain.lines, List.length_cons, List.length_append]
    omega

/-- The search behind a header finds the clauses of the chain and its end. -/
theorem Chain.gather_lines_zero (size i : Nat) (ls : List Line) : (c : Chain Sole) →
    gather .si Branches.clauseOf? size 0 i (c.lines ++ ls) = (c.clauses i, c.closeAt i)
  | .done close => gather_closes_zero close.2
  | .otherwise line body close => by
    simp only [Chain.lines, List.cons_append, List.append_assoc, List.nil_append]
    rw [gather_zero (line.2.opens .si) (line.2.closes .si), body.gather_lines heeds_clauseOf?,
      gather_closes_zero close.2, line.2.clause]
    rfl
  | .elseIf number condition body chain => by
    have h := plays_chained number condition
    simp only [Chain.lines, List.cons_append, List.append_assoc]
    rw [gather_zero (h.opens .si) (h.closes .si), body.gather_lines heeds_clauseOf?,
      chain.gather_lines_zero, h.clause]
    rfl

/-- **The clauses of a conditional are those of its chain**, whatever its bodies hold. -/
theorem branches_eq {lines ls : List Line} {p : Nat} {body : Block Sole} {chain : Chain Sole}
    (h : lines.drop p = body.lines ++ (chain.lines ++ ls)) :
    Branches.ofLines lines p =
      ⟨chain.clauses (p + body.lines.length), chain.closeAt (p + body.lines.length)⟩ := by
  rw [Branches.ofLines, h, branches_scan_eq_gather, body.gather_lines heeds_clauseOf?,
    chain.gather_lines_zero]

/-! ### The groups of a choice -/

/-- The marks of groups that start at a position. -/
def Groups.marks : Groups Marks → Nat → List (Mark × Nat)
  | .nil, _ => []
  | .cons mark _ body rest, p => (mark, p) :: rest.marks (p + 1 + body.lines.length)

/-- The marks and the lines of groups that start at a position. -/
def Groups.spans : Groups Marks → Nat → List (Mark × Span)
  | .nil, _ => []
  | .cons mark _ body rest, p =>
    (mark, ⟨p + 1, p + 1 + body.lines.length⟩) :: rest.spans (p + 1 + body.lines.length)

/-- The search behind the header of a choice finds the marks of the groups and its end. -/
theorem Groups.gather_lines_zero {close : Line} (hclose : Plays close (.closes .segun))
    (size i : Nat) (ls : List Line) : (g : Groups Sole) →
    gather .segun noteMark size 0 i (g.lines ++ close :: ls) = (g.marks i, i + g.lines.length)
  | .nil => gather_closes_zero hclose
  | .cons mark line body rest => by
    have h : Plays line.1 (.mark mark) := line.2
    simp only [Groups.lines, List.cons_append, List.append_assoc, List.length_cons,
      List.length_append]
    rw [gather_zero (h.opens .segun) (h.closes .segun), body.gather_lines heeds_noteMark,
      rest.gather_lines_zero hclose, noteMark, h.mark]
    refine Prod.ext rfl ?_
    simp only
    omega

/-- The lines behind a mark up to the next one are the body of its group. -/
private theorem Groups.bodies_marks (p : Nat) : (g : Groups Marks) →
    Cases.bodies (p + g.lines.length) (g.marks p) = g.spans p
  | .nil => rfl
  | .cons mark line body .nil => by
    simp only [Groups.lines, Groups.marks, Groups.spans, Cases.bodies, List.length_cons,
      List.length_append, List.length_nil]
    congr 3
    omega
  | .cons mark line body (.cons mark' line' body' rest) => by
    -- a group ends at the mark of the next one, so the groups are taken two at a time
    have h := Groups.bodies_marks (p + 1 + body.lines.length) (.cons mark' line' body' rest)
    simp only [Groups.lines, Groups.marks, Groups.spans, Cases.bodies, List.length_cons,
      List.length_append] at h ⊢
    rw [← h]
    congr 2
    omega

/-- **The groups of a choice are those of the tree**, whatever their bodies hold. -/
theorem cases_eq {lines ls : List Line} {p : Nat} {groups : Groups Sole}
    {close : LineAs (.closes .segun)} (h : lines.drop p = groups.lines ++ close.1 :: ls) :
    Cases.ofLines lines p = ⟨Cases.withValues (groups.spans p),
      Cases.lastDefault (groups.spans p), p + groups.lines.length⟩ := by
  simp only [Cases.ofLines, h, cases_scan_eq_gather, groups.gather_lines_zero close.2,
    groups.bodies_marks]

end Pseudocode.Structured
