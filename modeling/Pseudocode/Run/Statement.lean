import Pseudocode.Program
import Pseudocode.Run.Frame
import Pseudocode.Run.State

/-!
# Carrying out a statement

What each kind of statement does. A statement that opens a block says which body is to run and how
often; the body itself is run by the machine.
-/

namespace Pseudocode

/-- A body that the statement at position `i` of a program opens, and the passes over it. -/
structure Body (i size : Nat) where
  span : Span
  passes : Passes
  inside : Cases.Inside (i + 1) size span

namespace Exec

/-- The integer that the value of an expression is cut to. Only finite numbers will do. -/
def integer (value : Value) (source : Text) : Exec Int := do
  let refuse : Exec Int := do
    let shown ← ofExcept value.display
    throw (.within source (.notAnInteger shown))
  match value with
  | .number n =>
    if ← ofExcept n.isFinite then ofExcept n.truncate else refuse
  | _ => refuse

/-- The integer that an expression stands for. -/
def integerOf (source : Text) : Exec Int := do
  let value ← evaluate (Eval.value source)
  integer value source

/-- Defines variables of a type. -/
def declare (names : List Text) (type : Text) : Exec Unit := do
  for name in names do
    update (.declare name type)
  addNode .process
    ("Definir ".toList ++ Text.join ", ".toList names ++ " como ".toList ++ type)

/-- Defines arrays. -/
def dimension (arrays : List (Text × Text)) (source : Text) : Exec Unit := do
  for (name, size) in arrays do
    let n ← integerOf size
    update (.dimension name n)
  addNode .process ("Dimension ".toList ++ source)

/-- The value that an answer gives to a variable of a type. Numbers are read from the start of the
answer; without a finite number there it is zero. -/
def coerce (type : VarType) (answer : Text) : Except Fault Value :=
  match type with
  | .integer | .real => do
    match ← Numeral.leading answer with
    | none => return .int 0
    | some x =>
      match Binary64.form x with
      | .finite p => return if type = .integer then .int p.truncate else .real x
      | _ => return .int 0
  | .logical => .ok (.bool (answer.trim.lower == "verdadero".toList))
  | _ => .ok (.text answer)

/-- Reads a value for a variable. -/
def readInto (name : Text) : Exec Unit := do
  let v ← ofExcept ((← get).store.lookup name true)
  let answer ← ask ("Ingrese valor para ".toList ++ name ++ [':'])
  let value ← ofExcept (coerce v.type answer)
  update (.set name value true)

/-- Reads values for variables. -/
def input (names : List Text) (source : Text) : Exec Unit := do
  for name in names do
    readInto name
  addNode .input ("Leer ".toList ++ source)

/-- Writes the line that a list stands for. -/
def output (source : Text) : Exec Unit := do
  let line ← evaluate (Eval.concatenation source)
  write line
  addNode .output ("Escribir ".toList ++ source)

/-- Starts a loop with a condition. -/
def startWhile (condition : Text) : Exec Passes := do
  addNode .decision ("Mientras ".toList ++ condition)
  return .whilst condition (← read).maxPasses

/-- The step of a counting loop, which must not be zero. -/
def stepOf : Option Text → Exec { step : Int // step ≠ 0 }
  | none => return ⟨1, by decide⟩
  | some source => do
    let n ← integerOf source
    if h : n ≠ 0 then return ⟨n, h⟩ else throw (.within source .zeroStep)

/-- Starts a counting loop. -/
def startFor (counter first last : Text) (step : Option Text) : Exec Passes := do
  let a ← integerOf first
  let b ← integerOf last
  let ⟨s, h⟩ ← stepOf step
  addNode .decision
    ("Para ".toList ++ counter ++ " <- ".toList ++ Text.ofInt a ++ " Hasta ".toList ++ Text.ofInt b)
  return .counted counter a b s h

/-- Whether a value of a case is the given value: equal as numbers, or shown alike but for case. -/
def caseMatches (value : Value) (candidate : Value) : Except Fault Bool :=
  match candidate, value with
  | .number m, .number n => .ok (m.equals n)
  | _, _ => do
    let a ← candidate.display
    let b ← value.display
    return a.lower == b.lower

/-- Whether one of the values of a case is the given value. -/
def anyMatches (value : Value) : List Value → Except Fault Bool
  | [] => .ok false
  | candidate :: rest => do
    if ← caseMatches value candidate then return true else anyMatches value rest

/-- The first case that has the given value. -/
def findCase (value : Value) : List Case → Except Fault (Option Case)
  | [] => .ok none
  | c :: rest => do
    if ← anyMatches value c.values then return some c else findCase value rest

/-- A group that is found is one of the groups. -/
theorem mem_of_findCase {value : Value} {cases : List Case} {c : Case}
    (h : findCase value cases = .ok (some c)) : c ∈ cases := by
  induction cases with
  | nil => simp [findCase] at h
  | cons d rest ih =>
    simp only [findCase, bind, Except.bind, pure, Except.pure] at h
    split at h
    · cases h
    · split at h
      · injection h with h
        injection h with h
        exact h ▸ List.mem_cons_self
      · exact List.mem_cons_of_mem _ (ih h)

/-- The values of a case as the trace shows them. -/
def showValues (values : List Value) : Except Fault Text := do
  return Text.join ", ".toList (← values.mapM Value.display)

/-- Finds the group to run for the value of a subject. -/
def choose {i size : Nat} (subject : Text) (cases : Cases) (h : cases.Within (i + 1) size) :
    Exec (Option (Body i size)) := do
  let value ← evaluate (Eval.value subject)
  addNode .decision ("Segun ".toList ++ subject)
  match hc : findCase value cases.cases with
  | .error fault => throw fault
  | .ok (some c) =>
    addNode .process ("Caso ".toList ++ (← ofExcept (showValues c.values)))
    have inside := h.cases c (mem_of_findCase hc)
    return some ⟨c.body, .once true,
      Nat.le_of_succ_le inside.1, inside.2.1, Nat.le_trans inside.2.2 h.upper⟩
  | .ok none =>
    match hd : cases.default with
    | none => return none
    | some span =>
      addNode .process "De Otro Modo".toList
      have inside := h.default span hd
      return some ⟨span, .once true,
        Nat.le_of_succ_le inside.1, inside.2.1, Nat.le_trans inside.2.2 h.upper⟩

/-- Whether a statement is a clause with a condition of its own. -/
def isChained : Option Statement → Bool
  | some ⟨_, .conditional _ _ true⟩ => true
  | _ => false

/-- The body of a conditional at position `i` whose condition holds. -/
def thenBody {i size : Nat} (b : Branches) (h : b.Within (i + 1) size) : Body i size where
  span := Action.thenBody i b
  passes := .once true
  inside := by
    have hl := h.lower
    have hu := h.upper
    simp only [Action.thenBody, Branches.firstEnd, Branches.elseIndex?, Cases.Inside]
    cases hc : b.clauses with
    | nil => simp; omega
    | cons c rest =>
      have := h.clauses c (by simp [hc])
      simp; omega

/-- What to run if the condition of a conditional at position `i` does not hold: a first clause
with a condition of its own is run as a statement, and any other first clause is passed over for
what follows it up to the end. -/
def elseBody {i size : Nat} (program : Program) (b : Branches) (h : b.Within (i + 1) size) :
    Option (Body i size) :=
  match hc : b.clauses with
  | [] => none
  | c :: _ =>
    have hb := h.clauses c (by simp [hc])
    have hu := h.upper
    some <|
      if isChained program.statements[c.index]? then
        ⟨⟨c.index, c.index + 1⟩, .once true, hb.1, by simp, by simp; omega⟩
      else
        ⟨⟨c.index + 1, b.terminator⟩, .once true, by simp; omega, by simp; omega, hu⟩

/-- Decides a conditional. -/
def decide {i size : Nat} (program : Program) (condition : Text) (b : Branches) (chained : Bool)
    (h : b.Within (i + 1) size) : Exec (Option (Body i size)) := do
  let holds ← evaluate (Eval.condition condition)
  addNode .decision ((if chained then "SiNo Si " else "Si ").toList ++ condition)
  return if holds then some (thenBody b h) else elseBody program b h

/-- Gives a new value to a variable or to an array element. -/
def assign (target name : Text) (index : Option Text) (source : Text) : Exec Unit := do
  match index with
  | some index =>
    unless (← get).store.contains name do throw (.undefinedArray name)
    let i ← evaluate (Eval.value index)
    let value ← evaluate (Eval.value source)
    update (.setElement name i value)
  | none =>
    let _ ← ofExcept ((← get).store.lookup name true)
    let value ← evaluate (Eval.value source)
    update (.set name value true)
  addNode .process (target ++ " <- ".toList ++ source)

/-- Carries out the statement at position `i`, and gives the body that it opens, if any. -/
def statement {i size : Nat} (program : Program) (a : Action) (h : a.Fits i size) :
    Exec (Option (Body i size)) :=
  match a, h with
  | .skip, _ | .marker, _ => return none
  | .declare names type, _ => do declare names type; return none
  | .dimension arrays source, _ => do dimension arrays source; return none
  | .input names source, _ => do input names source; return none
  | .output source, _ => do output source; return none
  | .whileLoop condition body, h => do
    let passes ← startWhile condition
    return some ⟨body, passes, h⟩
  | .forLoop counter first last step body, h => do
    let passes ← startFor counter first last step
    return some ⟨body, passes, h⟩
  | .choice subject cases, h => choose subject cases h
  | .conditional condition branches chained, h => decide program condition branches chained h
  | .assign target name index source, _ => do assign target name index source; return none

/-- Asks for the next pass: the passes left after it, which are fewer, or nothing if there is
none. -/
def nextPass : (p : Passes) → Exec (Option { q : Passes // q.bound < p.bound })
  | .once true => return some ⟨.once false, by decide⟩
  | .once false => return none
  | .whilst _ 0 => return none
  | .whilst condition (left + 1) => do
    if ← evaluate (Eval.condition condition) then
      return some ⟨.whilst condition left, Nat.lt_succ_self left⟩
    else return none
  | .counted counter next last step h => do
    if hc : Passes.counts next last step = true then
      update (.define counter .integer (.int next))
      return some ⟨.counted counter (next + step) last step h, Passes.bound_counted_lt h hc⟩
    else return none

end Exec

end Pseudocode
