import Pseudocode.Expr.Parser

/-!
# Reading expressions by place

The readers of expressions take lists of tokens, in which there is nothing to be read behind the
end. Here they stand a second time as walks over a fixed list with an end mark behind its last
token: a walk knows the place where it stands, looks at places, and a look behind the end mark
stops it with a complaint of its own, `Halt.outside`, which nothing else gives and nothing catches.

**Main result.** `walk_eq_ofTokens`: the walk over a list of tokens ends as the reader does, with
the same tree or the same problem. So no look falls behind the end mark. Besides the place where it
stands a walk looks one place ahead, behind a word for negation; that word is a token, so the place
behind it holds a token or the end mark.

The proof compares walks and readers depth by depth (`Along`): a walk that stands no further than
the end mark does what the reader does on the tokens from there on, and ends no further than the
end mark.
-/

namespace Pseudocode

namespace Walk

/-- Why a walk stops short: something is wrong with the expression, or it looked behind the end
mark. -/
inductive Halt where
  | problem (p : Problem)
  | outside
deriving DecidableEq

/-- The token at a place, `none` at the end mark. -/
def look (ts : List Token) (pos : Nat) : Except Halt (Option Token) :=
  if pos ≤ ts.length then .ok ts[pos]? else .error .outside

/-- Passes over a closing symbol. -/
def closing (ts : List Token) (s : Symbol) (shown : Char) (pos : Nat) : Except Halt Nat := do
  match ← look ts pos with
  | some t => if t.symbol == s then return pos + 1 else throw (.problem (.expected shown))
  | none => throw (.problem (.expected shown))

/-- Whether a negation starts at a place. -/
def negates (ts : List Token) (pos : Nat) : Except Halt Bool := do
  match ← look ts pos with
  | none => return false
  | some t =>
    if t.symbol == .operator .tilde then return true
    else if t.symbol.isWord ["no", "not"] then
      return (← look ts (pos + 1)).any (·.symbol.startsOperand)
    else return false

mutual

/-- An operand of the given level. -/
def operand (ts : List Token) : Nat → Level → Nat → Except Halt (Expr × Nat)
  | 0, _, _ => .error (.problem .incomplete)
  | depth + 1, .disjunction, pos => level ts depth .conjunction pos
  | depth + 1, .conjunction, pos => negation ts depth pos
  | depth + 1, .comparison, pos => level ts depth .sum pos
  | depth + 1, .sum, pos => level ts depth .product pos
  | depth + 1, .product, pos => signed ts depth pos
termination_by structural depth => depth

/-- One or more operands of a level with its operators between them. -/
def level (ts : List Token) : Nat → Level → Nat → Except Halt (Expr × Nat)
  | 0, _, _ => .error (.problem .incomplete)
  | depth + 1, l, pos => do
    let (left, pos) ← operand ts depth l pos
    chain ts depth l left pos
termination_by structural depth => depth

/-- The operators and operands of a level that follow a left operand. -/
def chain (ts : List Token) : Nat → Level → Expr → Nat → Except Halt (Expr × Nat)
  | 0, _, _, _ => .error (.problem .incomplete)
  | depth + 1, l, left, pos => do
    match ← look ts pos with
    | none => return (left, pos)
    | some t =>
      match l.combine? t.symbol with
      | none => return (left, pos)
      | some combine => do
        let (right, pos) ← operand ts depth l (pos + 1)
        chain ts depth l (combine left right) pos
termination_by structural depth => depth

/-- A comparison, with any number of negations before it. -/
def negation (ts : List Token) : Nat → Nat → Except Halt (Expr × Nat)
  | 0, _ => .error (.problem .incomplete)
  | depth + 1, pos => do
    if ← negates ts pos then do
      let (e, pos) ← negation ts depth (pos + 1)
      return (.unary .not e, pos)
    else level ts depth .comparison pos
termination_by structural depth => depth

/-- A power, with any number of signs before it. -/
def signed (ts : List Token) : Nat → Nat → Except Halt (Expr × Nat)
  | 0, _ => .error (.problem .incomplete)
  | depth + 1, pos => do
    match ← look ts pos with
    | none => power ts depth pos
    | some t =>
      if t.symbol == .operator .minus then do
        let (e, pos) ← signed ts depth (pos + 1)
        return (.unary .negate e, pos)
      else if t.symbol == .operator .plus then do
        let (e, pos) ← signed ts depth (pos + 1)
        return (.unary .keep e, pos)
      else power ts depth pos
termination_by structural depth => depth

/-- A term, raised to a power or not. -/
def power (ts : List Token) : Nat → Nat → Except Halt (Expr × Nat)
  | 0, _ => .error (.problem .incomplete)
  | depth + 1, pos => do
    let (base, pos) ← term ts depth pos
    match ← look ts pos with
    | none => return (base, pos)
    | some t =>
      if t.symbol == .operator .caret || t.symbol == .operator .starStar then do
        let (exponent, pos) ← signed ts depth (pos + 1)
        return (.binary .power base exponent, pos)
      else return (base, pos)
termination_by structural depth => depth

/-- A literal, a name, an array element, a call or an expression in parentheses. -/
def term (ts : List Token) : Nat → Nat → Except Halt (Expr × Nat)
  | 0, _ => .error (.problem .incomplete)
  | depth + 1, pos => do
    match ← look ts pos with
    | none => throw (.problem .incomplete)
    | some t =>
      match t.symbol with
      | .number n => return (.number n, pos + 1)
      | .string content => return (.text content, pos + 1)
      | .word name =>
        match truthWord? name.lower with
        | some b => return (.bool b, pos + 1)
        | none =>
          match ← look ts (pos + 1) with
          | none => return (.variable name, pos + 1)
          | some u =>
            if u.symbol == .paren true then do
              let (es, pos) ← arguments ts depth (pos + 2)
              return (.call name.lower es, pos)
            else if u.symbol == .bracket true then do
              let (index, pos) ← level ts depth .disjunction (pos + 2)
              let pos ← closing ts (.bracket false) ']' pos
              return (.element name index, pos)
            else return (.variable name, pos + 1)
      | .paren true => do
        let (inner, pos) ← level ts depth .disjunction (pos + 1)
        let pos ← closing ts (.paren false) ')' pos
        return (inner, pos)
      | s => throw (.problem (.unexpectedSymbol s.text t.column))
termination_by structural depth => depth

/-- The arguments of a call behind its opening parenthesis, up to the closing one. -/
def arguments (ts : List Token) : Nat → Nat → Except Halt (List Expr × Nat)
  | 0, _ => .error (.problem .incomplete)
  | depth + 1, pos => do
    match ← look ts pos with
    | none => argumentList ts depth pos
    | some t =>
      if t.symbol == .paren false then return ([], pos + 1) else argumentList ts depth pos
termination_by structural depth => depth

/-- One or more arguments with commas between them, up to the closing parenthesis. -/
def argumentList (ts : List Token) : Nat → Nat → Except Halt (List Expr × Nat)
  | 0, _ => .error (.problem .incomplete)
  | depth + 1, pos => do
    let (e, pos) ← level ts depth .disjunction pos
    match ← look ts pos with
    | none => throw (.problem (.expected ')'))
    | some t =>
      if t.symbol == .comma then do
        let (es, pos) ← argumentList ts depth (pos + 1)
        return (e :: es, pos)
      else do
        let pos ← closing ts (.paren false) ')' pos
        return ([e], pos)
termination_by structural depth => depth

end

/-- The expression that a list of tokens is as a whole: the walk from its first place, which has to
end at the end mark. -/
def walk (ts : List Token) : Except Halt Expr := do
  match ← look ts 0 with
  | none => throw (.problem .empty)
  | some _ =>
    let (tree, pos) ← level ts (Expr.depthBound ts) .disjunction 0
    match ← look ts pos with
    | none => return tree
    | some t => throw (.problem (.unexpectedSymbol t.symbol.text t.column))

/-! ### Walks and readers side by side -/

/-- A walk does what a reader does: it complains of the same problem, or it has the same result and
stands, no further than the end mark, where the reader's rest starts. -/
def Along {α : Type} (ts : List Token) :
    Except Problem (α × List Token) → Except Halt (α × Nat) → Prop
  | .ok (a, rest), w => ∃ pos ≤ ts.length, rest = ts.drop pos ∧ w = .ok (a, pos)
  | .error p, w => w = .error (.problem p)

section Along

variable {α β : Type} {ts : List Token} {pos : Nat}

private theorem Along.here (a : α) (h : pos ≤ ts.length) :
    Along ts (.ok (a, ts.drop pos)) (.ok (a, pos)) :=
  ⟨pos, h, rfl, rfl⟩

private theorem Along.bind {r : Except Problem (α × List Token)} {w : Except Halt (α × Nat)}
    {f : α × List Token → Except Problem (β × List Token)} {g : α × Nat → Except Halt (β × Nat)}
    (h : Along ts r w)
    (hfg : ∀ a pos, pos ≤ ts.length → Along ts (f (a, ts.drop pos)) (g (a, pos))) :
    Along ts (r >>= f) (w >>= g) := by
  cases r with
  | error p =>
    obtain rfl : w = .error (.problem p) := h
    exact rfl
  | ok x =>
    obtain ⟨a, rest⟩ := x
    obtain ⟨pos, hpos, rfl, rfl⟩ := h
    exact hfg a pos hpos

/-- What a look up to the end mark shows: the end mark if no tokens are left, otherwise the first of
those that are. -/
private theorem look_cases (h : pos ≤ ts.length) :
    (ts.drop pos = [] ∧ look ts pos = pure none) ∨
      ∃ t, ts.drop pos = t :: ts.drop (pos + 1) ∧ pos + 1 ≤ ts.length ∧
        look ts pos = pure (some t) := by
  rw [look, if_pos h]
  rcases Nat.eq_or_lt_of_le h with rfl | hlt
  · refine .inl ⟨List.drop_length, ?_⟩
    rw [List.getElem?_eq_none (Nat.le_refl _)]
    rfl
  · refine .inr ⟨ts[pos], List.drop_eq_getElem_cons hlt, hlt, ?_⟩
    rw [List.getElem?_eq_getElem hlt]
    rfl

private theorem closing_along (a : α) (s : Symbol) (shown : Char) (h : pos ≤ ts.length) :
    Along ts (expectClosing s shown (ts.drop pos) >>= fun rest => pure (a, rest))
      (closing ts s shown pos >>= fun pos => pure (a, pos)) := by
  rw [closing]
  rcases look_cases h with ⟨hdrop, hlook⟩ | ⟨t, hdrop, hpos, hlook⟩ <;>
    rw [hdrop, hlook, pure_bind]
  · exact rfl
  · dsimp only [expectClosing]
    split
    · exact Along.here a hpos
    · exact rfl

/-- Looking for a negation never leads behind the end mark. -/
private theorem negates_eq (h : pos ≤ ts.length) :
    negates ts pos = pure (match ts.drop pos with
      | [] => false
      | t :: rest => t.symbol == .operator .tilde ||
          (t.symbol.isWord ["no", "not"] && rest.head?.any (·.symbol.startsOperand))) := by
  rw [negates]
  rcases look_cases h with ⟨hdrop, hlook⟩ | ⟨t, hdrop, hpos, hlook⟩ <;>
    rw [hdrop, hlook, pure_bind]
  dsimp only
  split
  · next ht => simp only [ht, Bool.true_or]
  · next ht =>
    simp only [(Bool.not_eq_true _).mp ht, Bool.false_or]
    split
    · next hw =>
      -- a token stands here, so the place behind it is at most the end mark
      simp only [hw, Bool.true_and]
      rcases look_cases hpos with ⟨hdrop', hlook'⟩ | ⟨u, hdrop', -, hlook'⟩ <;>
        rw [hdrop', hlook', pure_bind] <;> rfl
    · next hw => simp only [(Bool.not_eq_true _).mp hw, Bool.false_and]

end Along

/-- The walks of a depth go along with the readers of that depth. -/
structure Keeps (ts : List Token) (depth : Nat) : Prop where
  operand (l : Level) {pos : Nat} : pos ≤ ts.length →
    Along ts (readOperand depth l (ts.drop pos)) (operand ts depth l pos)
  level (l : Level) {pos : Nat} : pos ≤ ts.length →
    Along ts (readLevel depth l (ts.drop pos)) (level ts depth l pos)
  chain (l : Level) (left : Expr) {pos : Nat} : pos ≤ ts.length →
    Along ts (readChain depth l left (ts.drop pos)) (chain ts depth l left pos)
  negation {pos : Nat} : pos ≤ ts.length →
    Along ts (readNegation depth (ts.drop pos)) (negation ts depth pos)
  signed {pos : Nat} : pos ≤ ts.length →
    Along ts (readSigned depth (ts.drop pos)) (signed ts depth pos)
  power {pos : Nat} : pos ≤ ts.length →
    Along ts (readPower depth (ts.drop pos)) (power ts depth pos)
  term {pos : Nat} : pos ≤ ts.length →
    Along ts (readTerm depth (ts.drop pos)) (term ts depth pos)
  arguments {pos : Nat} : pos ≤ ts.length →
    Along ts (readArguments depth (ts.drop pos)) (arguments ts depth pos)
  list {pos : Nat} : pos ≤ ts.length →
    Along ts (readArgumentList depth (ts.drop pos)) (argumentList ts depth pos)

section Step

variable {ts : List Token} {depth pos : Nat}

private theorem keeps_zero : Keeps ts 0 := by
  constructor <;> intros <;> exact rfl

variable (ih : Keeps ts depth) (h : pos ≤ ts.length)

include ih h

private theorem operand_along (l : Level) :
    Along ts (readOperand (depth + 1) l (ts.drop pos)) (operand ts (depth + 1) l pos) := by
  cases l with
  | disjunction => exact ih.level _ h
  | conjunction => exact ih.negation h
  | comparison => exact ih.level _ h
  | sum => exact ih.level _ h
  | product => exact ih.signed h

private theorem level_along (l : Level) :
    Along ts (readLevel (depth + 1) l (ts.drop pos)) (level ts (depth + 1) l pos) :=
  (ih.operand l h).bind fun left _ hpos => ih.chain l left hpos

private theorem chain_along (l : Level) (left : Expr) :
    Along ts (readChain (depth + 1) l left (ts.drop pos)) (chain ts (depth + 1) l left pos) := by
  have hhere := Along.here left h
  rw [chain]
  rcases look_cases h with ⟨hdrop, hlook⟩ | ⟨t, hdrop, hpos, hlook⟩ <;>
    rw [hdrop] at hhere <;> rw [hdrop, hlook, pure_bind, readChain] <;> dsimp only
  · exact hhere
  · cases l.combine? t.symbol with
    | none => exact hhere
    | some make =>
      exact (ih.operand l hpos).bind fun right _ hpos => ih.chain l (make left right) hpos

private theorem negation_along :
    Along ts (readNegation (depth + 1) (ts.drop pos)) (negation ts (depth + 1) pos) := by
  have hcompare := ih.level .comparison h
  rw [negation, negates_eq h, pure_bind]
  rcases look_cases h with ⟨hdrop, -⟩ | ⟨t, hdrop, hpos, -⟩ <;>
    rw [hdrop] at hcompare ⊢ <;> simp only [readNegation]
  · exact hcompare
  · split
    · exact (ih.negation hpos).bind fun e _ hpos => Along.here _ hpos
    · exact hcompare

private theorem signed_along :
    Along ts (readSigned (depth + 1) (ts.drop pos)) (signed ts (depth + 1) pos) := by
  have hpower := ih.power h
  rw [signed]
  rcases look_cases h with ⟨hdrop, hlook⟩ | ⟨t, hdrop, hpos, hlook⟩ <;>
    rw [hdrop] at hpower ⊢ <;> rw [hlook, pure_bind] <;> dsimp only [readSigned]
  · exact hpower
  · split
    · exact (ih.signed hpos).bind fun e _ hpos => Along.here _ hpos
    split
    · exact (ih.signed hpos).bind fun e _ hpos => Along.here _ hpos
    · exact hpower

private theorem power_along :
    Along ts (readPower (depth + 1) (ts.drop pos)) (power ts (depth + 1) pos) := by
  rw [power, readPower]
  refine (ih.term h).bind fun base pos hpos => ?_
  have hhere := Along.here base hpos
  dsimp only
  rcases look_cases hpos with ⟨hdrop, hlook⟩ | ⟨t, hdrop, hpos', hlook⟩ <;>
    rw [hdrop] at hhere ⊢ <;> rw [hlook, pure_bind] <;> dsimp only
  · exact hhere
  · split
    · exact (ih.signed hpos').bind fun exponent _ hpos => Along.here _ hpos
    · exact hhere

private theorem term_along :
    Along ts (readTerm (depth + 1) (ts.drop pos)) (term ts (depth + 1) pos) := by
  rw [term]
  rcases look_cases h with ⟨hdrop, hlook⟩ | ⟨t, hdrop, hpos, hlook⟩ <;>
    rw [hdrop, hlook, pure_bind, readTerm] <;> dsimp only
  · exact rfl
  cases t.symbol with
  | number n => exact Along.here _ hpos
  | string content => exact Along.here _ hpos
  | paren opens =>
    cases opens with
    | true => exact (ih.level .disjunction hpos).bind fun inner _ hpos => closing_along _ _ _ hpos
    | false => exact rfl
  | bracket opens => exact rfl
  | comma => exact rfl
  | operator o => exact rfl
  | word name =>
    have hhere := Along.here (Expr.variable name) hpos
    dsimp only
    cases truthWord? name.lower with
    | some b => exact Along.here _ hpos
    | none =>
      dsimp only
      rcases look_cases hpos with ⟨hdrop, hlook⟩ | ⟨u, hdrop, hpos', hlook⟩ <;>
        rw [hdrop] at hhere ⊢ <;> rw [hlook, pure_bind] <;> dsimp only
      · exact hhere
      split
      · exact (ih.arguments hpos').bind fun es _ hpos => Along.here _ hpos
      split
      · exact (ih.level .disjunction hpos').bind fun index _ hpos => closing_along _ _ _ hpos
      · exact hhere

private theorem arguments_along :
    Along ts (readArguments (depth + 1) (ts.drop pos)) (arguments ts (depth + 1) pos) := by
  have hlist := ih.list h
  rw [arguments]
  rcases look_cases h with ⟨hdrop, hlook⟩ | ⟨t, hdrop, hpos, hlook⟩ <;>
    rw [hdrop] at hlist ⊢ <;> rw [hlook, pure_bind] <;> dsimp only [readArguments]
  · exact hlist
  · split
    · exact Along.here _ hpos
    · exact hlist

private theorem argumentList_along :
    Along ts (readArgumentList (depth + 1) (ts.drop pos)) (argumentList ts (depth + 1) pos) := by
  rw [argumentList, readArgumentList]
  refine (ih.level .disjunction h).bind fun e pos hpos => ?_
  have hclose := closing_along [e] (.paren false) ')' hpos
  dsimp only
  rcases look_cases hpos with ⟨hdrop, hlook⟩ | ⟨t, hdrop, hpos', hlook⟩ <;>
    rw [hdrop] at hclose ⊢ <;> rw [hlook, pure_bind] <;> dsimp only
  · exact rfl
  · split
    · exact (ih.list hpos').bind fun es _ hpos => Along.here _ hpos
    · exact hclose

end Step

private theorem keeps (ts : List Token) : ∀ depth, Keeps ts depth
  | 0 => keeps_zero
  | depth + 1 =>
    have ih := keeps ts depth
    { operand := fun l _ h => operand_along ih h l
      level := fun l _ h => level_along ih h l
      chain := fun l left _ h => chain_along ih h l left
      negation := fun h => negation_along ih h
      signed := fun h => signed_along ih h
      power := fun h => power_along ih h
      term := fun h => term_along ih h
      arguments := fun h => arguments_along ih h
      list := fun h => argumentList_along ih h }

/-- **Walks never look behind the end mark.** The walk over a list of tokens ends as the reader
does. -/
theorem walk_eq_ofTokens (ts : List Token) :
    walk ts = (Expr.ofTokens ts).mapError .problem := by
  have hwalk := (keeps ts (Expr.depthBound ts)).level .disjunction (Nat.zero_le ts.length)
  rw [walk, Expr.ofTokens]
  rcases look_cases (Nat.zero_le ts.length) with ⟨hdrop, hlook⟩ | ⟨t, hdrop, -, hlook⟩ <;>
    rw [List.drop_zero] at hdrop hwalk <;> rw [hlook, pure_bind]
  · rw [if_pos (List.isEmpty_iff.mpr hdrop)]
    rfl
  rw [if_neg (fun h => List.cons_ne_nil _ _ (hdrop.symm.trans (List.isEmpty_iff.mp h)))]
  dsimp only
  cases hread : readLevel (Expr.depthBound ts) .disjunction ts with
  | error p =>
    rw [hread] at hwalk
    rw [show level ts _ _ _ = _ from hwalk]
    rfl
  | ok x =>
    obtain ⟨tree, rest⟩ := x
    rw [hread] at hwalk
    obtain ⟨pos, hpos, rfl, hlevel⟩ := hwalk
    rw [hlevel]
    change (look ts pos >>= _) = Except.mapError _ (match ts.drop pos with | [] => _ | _ :: _ => _)
    rcases look_cases hpos with ⟨hdrop, hlook⟩ | ⟨u, hdrop, -, hlook⟩ <;>
      rw [hdrop, hlook] <;> rfl

end Walk

end Pseudocode
