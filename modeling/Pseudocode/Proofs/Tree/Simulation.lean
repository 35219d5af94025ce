import Pseudocode.Proofs.Expr.Recognition
import Pseudocode.Proofs.Tree.Frames
import Pseudocode.Proofs.Tree.Layout

/-!
# The machine runs structured programs

**Structured execution is correct**: flattened to lines and run on the stack of frames, a
structured program ends in the state that its tree says.

The proof is by induction on the tree, with one lemma for each constructor (`Item.Carried.whileLoop`
and the others). Each finds the lines of the tree where the searches find them, and compares what
the machine carries out there with what the tree carries out: a test, a count, a choice. They differ
in their results only, a body for the stack on the one side and an effect on the other, and the body
has that effect by the induction hypothesis.

The labels of a choice must not look like other lines: with a label that looks like a header the
lines do not have the blocks of the tree (`mislabelled`).
-/

namespace Pseudocode.Structured

open Machine

variable {Marks : Line → Mark → Prop} {lines ls : List Line} {around : Surroundings}
  {p q r number : Nat} {m : RunState → RunState}

/-! ### Simple lines -/

/-- The statement opens no block. -/
def IsSimple : Action → Prop
  | .whileLoop .. | .forLoop .. | .choice .. | .conditional .. => False
  | _ => True

private theorem isSimple_simpleAction (t : Text) : IsSimple (simpleAction t) := by
  unfold simpleAction
  split
  · trivial
  split
  · unfold Action.readDeclare
    split <;> trivial
  split
  · unfold Action.readDimension
    split <;> trivial
  split
  · trivial
  split
  · trivial
  split
  · unfold Action.readAssign
    split <;> trivial
  · trivial

/-- A simple statement is followed by the next line. -/
theorem IsSimple.resume_eq {a : Action} (h : IsSimple a) (i : Nat) : a.resume i = i + 1 := by
  cases a with
  | whileLoop | forLoop | choice | conditional => exact h.elim
  | _ => rfl

/-- A simple statement does what it does in a tree, and opens nothing. -/
theorem IsSimple.alike {program : Program} {i size : Nat} {a : Action} (h : IsSimple a)
    (hfits : a.Fits i size) :
    Alike around (fun body _ => body = none) (Exec.statement program a hfits) (simple a) := by
  cases a with
  | whileLoop | forLoop | choice | conditional => exact h.elim
  | skip | marker => exact .pure rfl
  | _ => exact (Alike.refl _).bind_left fun _ _ _ => .pure rfl

/-! ### Loops -/

/-- Both sides start a loop with a condition in the same way. -/
private theorem alike_startWhile (condition : Text) :
    Alike around (fun passes _ => passes = .whilst condition around.maxPasses)
      (Exec.startWhile condition)
      (Exec.addNode .decision ("Mientras ".toList ++ condition)) :=
  (Alike.refl _).bind_left fun _ _ _ s => .ok s rfl

/-- Both sides start a counting loop in the same way, with the same values to come. -/
private theorem alike_startFor (counter first last : Text) (step : Option Text) :
    Alike around
      (fun passes values => ∃ a b s h,
        passes = .counted counter a b s h ∧ values = countFrom a b s h)
      (Exec.startFor counter first last step) (startCount counter first last step) :=
  Alike.bind_same fun a => Alike.bind_same fun b => Alike.bind_same fun s =>
    Alike.bind_same fun _ => .pure ⟨a, b, s.1, s.2, rfl, rfl⟩

/-! ### Conditionals -/

/-- A conditional without clauses has nothing to run if its condition does not hold. -/
private theorem elseBody_of_nil {program : Program} {i size : Nat} {b : Branches}
    (hw : b.Within (i + 1) size) (hc : b.clauses = []) : Exec.elseBody program b hw = none := by
  unfold Exec.elseBody
  split
  · rfl
  · next h => cases hc.symm.trans h

/-- Behind a condition that does not hold, the next clause is run: its one line if it has a
condition of its own, and else all that is behind it. -/
theorem elseBody_of_cons (program : Program) {i size : Nat} {b : Branches} {c : Clause}
    {cs : List Clause} (hw : b.Within (i + 1) size) (hc : b.clauses = c :: cs) :
    ∃ body, Exec.elseBody program b hw = some body ∧ body.passes = .once true ∧
      body.span = if Exec.isChained program.statements[c.index]? then ⟨c.index, c.index + 1⟩
        else ⟨c.index + 1, b.terminator⟩ := by
  unfold Exec.elseBody
  split
  · next h => cases hc.symm.trans h
  · next d ds h =>
    obtain ⟨rfl, rfl⟩ := List.cons.inj (hc.symm.trans h)
    refine ⟨_, rfl, ?_⟩
    split <;> exact ⟨rfl, rfl⟩

/-- The first body of a conditional ends where the chain begins. -/
private theorem Chain.firstEnd_eq (q : Nat) (c : Chain Marks) :
    Branches.firstEnd ⟨c.clauses q, c.closeAt q⟩ = q := by
  cases c <;> rfl

/-- A conditional tests its condition as in a tree, and decides on a body by the answer. -/
theorem alike_decide {program : Program} {i size : Nat} {b : Branches} (condition : Text)
    (chained : Bool) (hw : b.Within (i + 1) size) :
    Alike around
      (fun body holds =>
        body = if holds then some (Exec.thenBody b hw) else Exec.elseBody program b hw)
      (Exec.decide program condition b chained hw)
      (test (if chained then "SiNo Si " else "Si ").toList condition) :=
  Alike.bind_same fun _ => Alike.bind_same fun _ => .pure rfl

/-! ### Choices -/

section Choice

variable {spans : List (Mark × Span)} {groups : List (Mark × (RunState → RunState))}

/-- Groups of lines do what the groups of a tree stand for, mark by mark. -/
def Matched (lines : List Line) (around : Surroundings) (spans : List (Mark × Span))
    (groups : List (Mark × (RunState → RunState))) : Prop :=
  List.Forall₂ (fun x y => x.1 = y.1 ∧ Realizes lines around x.2 y.2) spans groups

/-- The answers that go together of the searches for a group in the lines and in the tree. -/
inductive Chosen (lines : List Line) (around : Surroundings) :
    Except Fault (Option Case) →
      Except Fault (Option (List Value × (RunState → RunState))) → Prop
  | error (fault : Fault) : Chosen lines around (.error fault) (.error fault)
  | none : Chosen lines around (.ok none) (.ok none)
  | some {span : Span} {m : RunState → RunState} (values : List Value)
      (h : Realizes lines around span m) :
      Chosen lines around (.ok (some ⟨values, span⟩)) (.ok (some (values, m)))

/-- **The first group with a value** is the same in the lines and in the tree. -/
theorem Matched.findCase (h : Matched lines around spans groups) (value : Value) :
    Chosen lines around (Exec.findCase value (Cases.withValues spans))
      (firstMatch value groups) := by
  induction h with
  | nil => exact .none
  | @cons x y spans groups hxy h ih =>
    obtain ⟨mark, span⟩ := x
    obtain ⟨_, m⟩ := y
    obtain ⟨rfl, hm⟩ := hxy
    cases mark with
    | otherwise => exact ih
    | values vs =>
      simp only [Cases.withValues, List.filterMap_cons, Exec.findCase, firstMatch]
      cases Exec.anyMatches value vs with
      | error fault => exact .error fault
      | ok found =>
        cases found with
        | true => exact .some vs hm
        | false => exact ih

/-- **The last default** is the same in the lines and in the tree. -/
theorem Matched.lastDefault (h : Matched lines around spans groups) :
    Option.Rel (Realizes lines around) (Cases.lastDefault spans) (fallback groups) := by
  induction h with
  | nil => exact .none
  | @cons x y spans groups hxy h ih =>
    obtain ⟨mark, span⟩ := x
    obtain ⟨_, m⟩ := y
    obtain ⟨rfl, hm⟩ := hxy
    cases mark with
    | values vs => exact ih
    | otherwise =>
      have hlast : Cases.lastDefault ((.otherwise, span) :: spans) =
          (Cases.lastDefault spans).or (some span) := by
        simp only [Cases.lastDefault, List.filterMap_cons, List.getLast?_cons]
        cases List.getLast? _ <;> rfl
      rw [hlast, fallback]
      generalize Cases.lastDefault spans = a at ih ⊢
      generalize fallback groups = b at ih ⊢
      cases ih with
      | none => exact .some hm
      | some hm' => exact .some hm'

/-- Both sides choose the same group. -/
private theorem Matched.alike_choose (h : Matched lines around spans groups) (subject : Text)
    {stop i : Nat} (hw : Cases.Within ⟨Cases.withValues spans, Cases.lastDefault spans, stop⟩
      (i + 1) (Program.ofLines lines).size) :
    Alike around (Opens lines around number) (Exec.choose subject _ hw)
      (choose subject groups) := by
  refine Alike.bind_same fun value => Alike.bind_same fun _ => ?_
  have hfind := h.findCase value
  have hdefault := h.lastDefault
  -- the machine decides first; the relation leaves the tree no other answer
  split
  · next fault hc =>
    rw [hc] at hfind
    revert hfind
    generalize firstMatch value groups = found
    rintro ⟨⟩
    exact .throw fault
  · next c hc =>
    rw [hc] at hfind
    revert hfind
    generalize firstMatch value groups = found
    rintro (_ | _ | ⟨_, hm⟩)
    exact Alike.bind_same fun _ => Alike.bind_same fun _ => .pure (hm.opens rfl)
  · next hc =>
    rw [hc] at hfind
    revert hfind
    generalize firstMatch value groups = found
    rintro ⟨⟩
    rw [Exec.ofExcept_ok_bind]
    revert hdefault
    generalize fallback groups = other
    intro hdefault
    split
    · next hd =>
      rw [show Cases.lastDefault spans = none from hd] at hdefault
      cases hdefault
      exact .pure fun _ _ => rfl
    · next span hd =>
      rw [show Cases.lastDefault spans = some span from hd] at hdefault
      cases hdefault with
      | some hm => exact Alike.bind_same fun _ => .pure (hm.opens rfl)

end Choice

/-! ### Trees -/

section Trees

variable (lines : List Line) (around : Surroundings)

/-- Wherever the lines of the sequence stand, they do what the sequence stands for. -/
def Block.Carried (b : Block Sole) : Prop :=
  ∀ p ls, lines.drop p = b.lines ++ ls →
    Carries lines around p (p + b.lines.length) (p + b.lines.length) (b.exec around)

/-- Wherever the lines of the item stand, they do what the item stands for, even for a frame that
reaches no further than the first of them. -/
def Item.Carried (t : Item Sole) : Prop :=
  ∀ p ls, lines.drop p = t.lines ++ ls →
    Carries lines around p (p + t.lines.length) (p + 1) (t.exec around)

/-- Wherever the lines of the chain stand, a conditional with its clauses finds in them what the
chain stands for. -/
def Chain.Carried (c : Chain Sole) : Prop :=
  ∀ q ls, lines.drop q = c.lines ++ ls → ∀ (i number : Nat)
    (hw : Branches.Within ⟨c.clauses q, c.closeAt q⟩ (i + 1) (Program.ofLines lines).size),
    Opens lines around number (Exec.elseBody (.ofLines lines) _ hw) (c.exec around)

/-- Wherever the lines of the groups stand, they do what the groups stand for. -/
def Groups.Carried (g : Groups Sole) : Prop :=
  ∀ p ls, lines.drop p = g.lines ++ ls →
    Matched lines around (g.spans p) (g.meaning around)

end Trees

private theorem drop_of_append {a : List Line} (h : lines.drop p = a ++ ls) :
    lines.drop (p + a.length) = ls := by
  rw [← List.drop_drop, h, List.drop_left]

private theorem drop_of_cons {l : Line} (h : lines.drop p = l :: ls) : lines.drop (p + 1) = ls :=
  drop_of_append (a := [l]) h

private theorem Item.length_lines_pos (t : Item Marks) : 0 < t.lines.length := by
  cases t <;> exact Nat.succ_pos _

section Carried

variable {body : Block Sole} {chain : Chain Sole} {groups : Groups Sole}

/-- A block is carried if its first item and its rest are. -/
private theorem Block.Carried.cons {item : Item Sole} {rest : Block Sole}
    (hitem : item.Carried lines around) (hrest : rest.Carried lines around) :
    (Block.cons item rest).Carried lines around := by
  intro p ls h
  rw [Block.lines, List.append_assoc] at h
  -- the item asks for a frame that reaches its first line, which the end of the sequence is behind
  have hpos := item.length_lines_pos
  rw [Block.lines, List.length_append, ← Nat.add_assoc]
  exact (hitem p _ h).trans (hrest _ ls (drop_of_append h)) (by omega) (by omega) (by omega)

/-- A simple statement is carried. -/
private theorem Item.Carried.simple (line : LineAs .plain) :
    (Item.simple line).Carried lines around := by
  intro p ls h
  have hsimple := isSimple_simpleAction line.1.text
  refine carries_statement h (read_plain line.2 lines p) (hsimple.resume_eq p) fun hfits => ?_
  refine (hsimple.alike hfits).mono ?_
  rintro _ _ rfl
  exact fun _ _ => rfl

/-- A loop with a condition is carried if its body is. -/
theorem Item.Carried.whileLoop (number : Nat) (condition : Operand)
    (close : LineAs (.closes .mientras)) (hbody : body.Carried lines around) :
    (Item.whileLoop number condition body close).Carried lines around := by
  intro p ls h
  simp only [Item.lines, List.cons_append, List.append_assoc] at h
  have hread := read_whileText lines p condition
  rw [blockEnd_eq (drop_of_cons h)] at hread
  have hcarries := hbody (p + 1) _ (drop_of_cons h)
  rw [Item.exec]
  refine carries_statement h hread ?_ fun hfits =>
    (alike_startWhile condition.text).bind_left ?_
  · simp only [Action.resume, Item.lines, List.length_cons, List.length_append, List.length_nil]
    omega
  · rintro _ _ rfl
    exact .pure fun s frames => hcarries.run_whilst _ _ (through_frameOf number _)

/-- A counting loop is carried if its body is. -/
private theorem Item.Carried.forLoop (number : Nat) (counter : Counter) (first last : Operand)
    (step : Option Operand) (close : LineAs (.closes .para)) (hbody : body.Carried lines around) :
    (Item.forLoop number counter first last step body close).Carried lines around := by
  intro p ls h
  simp only [Item.lines, List.cons_append, List.append_assoc] at h
  have hread := read_forText lines p counter first last step
  rw [blockEnd_eq (drop_of_cons h)] at hread
  have hcarries := hbody (p + 1) _ (drop_of_cons h)
  rw [Item.exec]
  refine carries_statement h hread ?_ fun hfits => (alike_startFor _ _ _ _).bind_left ?_
  · simp only [Action.resume, Item.lines, List.length_cons, List.length_append, List.length_nil]
    omega
  · rintro _ _ ⟨a, b, s, hs, rfl, rfl⟩
    exact .pure fun t frames => hcarries.run_counted _ _ _ _ _ (through_frameOf number _)

/-- A conditional runs its body or what its chain has to offer, be it a clause itself or not. -/
private theorem carries_conditional {text : Text} {condition : Operand} {chained : Bool}
    (h : lines.drop p = ⟨number, text⟩ :: (body.lines ++ (chain.lines ++ ls)))
    (hread : Action.read lines p text =
      .conditional condition.text (.ofLines lines (p + 1)) chained)
    (hbody : body.Carried lines around) (hchain : chain.Carried lines around) :
    Carries lines around p (p + 1 + body.lines.length + chain.lines.length) (p + 1)
      (perform around number
        (test (if chained then "SiNo Si " else "Si ").toList condition.text) fun holds =>
          if holds then body.exec around else chain.exec around) := by
  have hdrop := drop_of_cons h
  rw [branches_eq hdrop] at hread
  refine carries_statement h hread (chain.closeAt_add_one _) fun hw =>
    (alike_decide condition.text chained hw).mono ?_
  rintro _ holds rfl
  cases holds with
  | true =>
    have hspan : (Exec.thenBody _ hw).span = ⟨p + 1, p + 1 + body.lines.length⟩ :=
      congrArg (Span.mk (p + 1)) (chain.firstEnd_eq _)
    have hrealizes := (hbody _ _ hdrop).realizes (Nat.le_refl _)
    rw [← hspan] at hrealizes
    exact hrealizes.opens rfl
  | false => exact hchain _ _ (drop_of_append hdrop) p number hw

/-- A conditional is carried if its first body and its chain are. -/
private theorem Item.Carried.conditional (number : Nat) (condition : Operand)
    (hbody : body.Carried lines around) (hchain : chain.Carried lines around) :
    (Item.conditional number condition body chain).Carried lines around := by
  intro p ls h
  simp only [Item.lines, List.cons_append, List.append_assoc] at h
  have hcarries := carries_conditional h (read_conditionalText lines p condition) hbody hchain
  have hlen : p + (Item.conditional number condition body chain).lines.length =
      p + 1 + body.lines.length + chain.lines.length := by
    simp only [Item.lines, List.length_cons, List.length_append]
    omega
  rw [hlen]
  exact hcarries

/-- A choice is carried if its groups are. -/
private theorem Item.Carried.choice (number : Nat) (subject : Operand)
    (close : LineAs (.closes .segun)) (hgroups : groups.Carried lines around) :
    (Item.choice number subject groups close).Carried lines around := by
  intro p ls h
  simp only [Item.lines, List.cons_append, List.append_assoc] at h
  have hread := read_choiceText lines p subject
  rw [cases_eq (drop_of_cons h)] at hread
  rw [Item.exec]
  refine carries_statement h hread ?_ fun hw =>
    (hgroups (p + 1) _ (drop_of_cons h)).alike_choose subject.text hw
  simp only [Action.resume, Item.lines, List.length_cons, List.length_append, List.length_nil]
  omega

/-- A chain that ends is carried. -/
private theorem Chain.Carried.done (close : LineAs (.closes .si)) :
    (.done close : Chain Sole).Carried lines around := by
  intro q ls _ i number hw
  rw [elseBody_of_nil hw rfl]
  exact fun _ _ => rfl

/-- A last clause is carried if its body is. -/
private theorem Chain.Carried.otherwise (line : LineAs (.clause false))
    (close : LineAs (.closes .si)) (hbody : body.Carried lines around) :
    (Chain.otherwise line body close).Carried lines around := by
  intro q ls h i number hw
  simp only [Chain.lines, List.cons_append, List.append_assoc] at h
  obtain ⟨b, hb, hpasses, hspan⟩ := elseBody_of_cons (.ofLines lines) hw rfl
  rw [getElem?_statements h, isChained_otherwise line.2, if_neg Bool.false_ne_true] at hspan
  rw [hb]
  refine Realizes.opens ?_ hpasses
  rw [hspan]
  exact (hbody (q + 1) _ (drop_of_cons h)).realizes (Nat.le_refl _)

/-- A clause with a condition is run as a statement, by a frame for its line alone: it is carried
out to the end of the conditional, which lies behind the end of the frame. -/
private theorem Chain.Carried.elseIf (number : Nat) (condition : Operand)
    (hbody : body.Carried lines around) (hchain : chain.Carried lines around) :
    (Chain.elseIf number condition body chain).Carried lines around := by
  intro q ls h i line hw
  simp only [Chain.lines, List.cons_append, List.append_assoc] at h
  have hread := read_chainedText lines q condition
  obtain ⟨b, hb, hpasses, hspan⟩ := elseBody_of_cons (.ofLines lines) hw rfl
  -- the frame is one line long; what the line opens reaches further than the frame does
  rw [getElem?_statements h, hread, Exec.isChained, if_pos rfl] at hspan
  rw [hb]
  refine Realizes.opens ?_ hpasses
  rw [hspan]
  exact (carries_conditional h hread hbody hchain).realizes (by omega)

/-- Groups are carried if the first body and the others are. -/
private theorem Groups.Carried.cons (mark : Mark) (line : { l : Line // Sole l mark })
    (hbody : body.Carried lines around) (hgroups : groups.Carried lines around) :
    (Groups.cons mark line body groups).Carried lines around := by
  intro p ls h
  simp only [Groups.lines, List.cons_append, List.append_assoc] at h
  have hdrop := drop_of_cons h
  exact .cons ⟨rfl, (hbody _ _ hdrop).realizes (Nat.le_refl _)⟩
    (hgroups _ _ (drop_of_append hdrop))

end Carried

mutual

/-- **The machine does what a block does**, wherever its lines stand. -/
private theorem Block.carried : (b : Block Sole) → b.Carried lines around
  | .nil => fun p _ _ => .refl p _
  | .cons item rest => .cons item.carried rest.carried

/-- The machine does what an item does. -/
private theorem Item.carried : (t : Item Sole) → t.Carried lines around
  | .simple line => .simple line
  | .whileLoop number condition body close => .whileLoop number condition close body.carried
  | .forLoop number counter first last step body close =>
    .forLoop number counter first last step close body.carried
  | .conditional number condition body chain =>
    .conditional number condition body.carried chain.carried
  | .choice number subject groups close => .choice number subject close groups.carried

/-- The machine does what a chain of clauses does. -/
private theorem Chain.carried : (c : Chain Sole) → c.Carried lines around
  | .done close => .done close
  | .otherwise line body close => .otherwise line close body.carried
  | .elseIf number condition body chain => .elseIf number condition body.carried chain.carried

/-- The machine does what the groups of a choice do. -/
private theorem Groups.carried : (g : Groups Sole) → g.Carried lines around
  | .nil => fun _ _ _ => .nil
  | .cons mark line body rest => .cons mark line body.carried rest.carried

end

/-- A program does what its lines do from the first to behind the last. -/
theorem execute_of_carries (h : Carries lines around 0 q r m) (hr : r ≤ lines.length)
    (hq : lines.length ≤ q) : Machine.execute around (.ofLines lines) = close (m .initial) := by
  have hsize : (Program.ofLines lines).size = lines.length := by
    simp [Program.size, Program.ofLines, Program.statementsOf]
  have hroot := (h.mono hr).realizes hq .initial (root (.ofLines lines)) [] 0
    ⟨congrArg (Span.mk 0) hsize, Nat.le_refl _, rfl, rfl⟩
  rw [Machine.execute, hroot, run]

/-- **The machine runs a structured program as its tree says**: from the same start to the same end,
with the same output, messages, variables and trace, whatever the surroundings answer. -/
theorem execute_lines_eq_execute (around : Surroundings) (program : Block Sole) :
    Machine.execute around (.ofLines program.lines) = program.execute around := by
  have hcarried : program.Carried program.lines around := program.carried
  have hcarries := hcarried 0 [] (List.append_nil _).symm
  rw [Nat.zero_add] at hcarries
  exact execute_of_carries hcarries (Nat.le_refl _) (Nat.le_refl _)

/-- The expression `"a"`. -/
def letterA : Operand where
  text := "\"a\"".toList
  nonempty := by decide
  trimmed := by decide
  free := by decide

private theorem plays_escribir : Plays ⟨4, "Escribir \"b\"".toList⟩ .plain where
  opens f := by cases f <;> rfl
  closes f := by cases f <;> rfl
  clause _ := rfl
  mark := rfl

-- a choice with a conditional in it, as a tree and as lines
example : (Block.cons (.choice 1 letterA (.cons .otherwise ⟨_, plays_default 2⟩ (.cons
      (.conditional 3 letterA (.cons (.simple ⟨_, plays_escribir⟩) .nil)
        (.otherwise ⟨_, plays_otherwise 5⟩ .nil ⟨_, plays_close 6 .si⟩)) .nil) .nil)
      ⟨_, plays_close 7 .segun⟩) .nil : Block Sole).lines.map Line.text =
    ["Segun \"a\" Hacer", "De Otro Modo:", "Si \"a\" Entonces", "Escribir \"b\"", "SiNo", "FinSi",
      "FinSegun"].map String.toList := rfl

/-! ### A label that is also a header -/

/-- A line that starts a group, whatever else it may be. -/
def Labels (l : Line) (mark : Mark) : Prop := Cases.markOf? l = some mark

private theorem labels_segun :
    Labels ⟨2, "segun x:".toList⟩ (.values [.text "segun x".toList]) := rfl

/-- A choice with the label `segun x:`, which looks like the header of a choice too, and a line
behind it:  Segun "a" Hacer segun x: FinSegun Escribir "b" -/
def mislabelled : Block Labels :=
  .cons (.choice 1 letterA (.cons _ ⟨_, labels_segun⟩ .nil .nil) ⟨_, plays_close 3 .segun⟩)
    (.cons (.simple ⟨_, plays_escribir⟩) .nil)

/-- In the lines, the choice never ends: its closing line is taken for that of the label. -/
private theorem read_mislabelled :
    Action.read mislabelled.lines 0 (choiceText letterA) = .choice letterA.text ⟨[], none, 4⟩ := by
  rw [read_choiceText]
  rfl

private theorem execute_mislabelled_lines :
    Machine.execute .unattended (.ofLines mislabelled.lines) =
      close (perform .unattended 1 (choose letterA.text []) (fun body => body) .initial) := by
  have hmatched : Matched mislabelled.lines .unattended [] [] := .nil
  have hcarries : Carries mislabelled.lines .unattended 0 5 (0 + 1)
      (perform .unattended 1 (choose letterA.text []) fun body => body) :=
    carries_statement rfl read_mislabelled rfl fun hw => hmatched.alike_choose letterA.text hw
  exact execute_of_carries hcarries (by decide) (by decide)

/-- The state after the choice. -/
def chosen : RunState :=
  { RunState.initial with
    trace := RunState.initial.trace.add .decision ("Segun ".toList ++ letterA.text) }

private theorem run_value_letterA (scope : Scope) (drawn : Nat) :
    (Eval.value letterA.text).run scope drawn = (.ok (.text ['a']), ⟨drawn, #[]⟩) := by
  have htokens : Token.tokensFrom 1 letterA.text.trim = .ok [⟨.string ['a'], 1⟩] := by
    decide +kernel
  have hparse : Expr.parse letterA.text = .ok (.text ['a']) := by
    rw [Grammar.parse_eq_of_scan (scan_of_tokensFrom htokens)]
    rfl
  rw [Eval.value, if_neg (by decide), Eval.expression, hparse]
  rfl

private theorem run_evaluate_letterA :
    (Exec.evaluate (Eval.value letterA.text)).run .unattended .initial =
      (.ok (.text ['a']), .initial) :=
  Exec.run_evaluate_of_quiet (run_value_letterA _ _)

/-- The choice of the tree ends at once, for want of a group with its value. -/
private theorem exec_mislabelled : mislabelled.exec .unattended .initial =
    perform .unattended 4 (Exec.output "\"b\"".toList) (fun _ => id) chosen := by
  have hchoose :
      (choose letterA.text [(.values [.text "segun x".toList], id)]).run .unattended .initial =
      (.ok id, chosen) := by
    rw [choose, Exec.run_bind_ok run_evaluate_letterA]
    rfl
  have hchosen :
      perform .unattended 1 (choose letterA.text [(.values [.text "segun x".toList], id)])
      (fun body => body) .initial = chosen := by
    rw [perform, if_neg (by decide), hchoose]
    rfl
  rw [← hchosen]
  rfl

/-- **A label must not be a header.** The machine passes over the line behind the choice, which the
tree runs. -/
theorem execute_mislabelled :
    (Machine.execute .unattended (.ofLines mislabelled.lines)).output = #[] ∧
      (mislabelled.execute .unattended).output = #["b".toList] := by
  constructor
  · rw [execute_mislabelled_lines]
    decide +kernel
  · rw [Block.execute, exec_mislabelled]
    rfl

end Pseudocode.Structured
